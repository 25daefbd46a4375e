import Hookit.Producer.Trades

/-!
# `producer/__main__.py`: the poll loop and the trade loop

The loops share the tracker and the generator, and an exception of one of them ends it: only the
fetch of a price is inside a `try`.

`run_returns`: every run returns whose polls bring `Admissible` prices: finite ones that can be
traded, as they are and nudged (`Nudges`), and whose moves from the last price and from the anchor do
not overflow (`PctFits`). A price that is not admissible is stored and ends a loop, at once or at the
next trade.
-/

namespace Hookit.Producer

open Foundations Foundations.PyStr Foundations.PyDecimal

/-- `app.state`, what the two loops share. -/
structure AppState where
  tracker : PriceTracker PyDecimal
  trades : TradeGenerator

/-- `round(uniform(-0.002, 0.002), 6)` in millionths. -/
def Jitter : Type := {k : ℤ // |k| ≤ 2000}

/-- `Decimal(str(x))` of the `float`, which prints without zeros at the end. -/
def Jitter.decimal (jitter : Jitter) : PyDecimal :=
  if jitter.1 = 0 then .finite false 0 (-1)
  else
    let zeros := trailingZeros jitter.1.natAbs
    .finite (jitter.1 < 0) (jitter.1.natAbs / 10 ^ zeros) (zeros - 6)

/-- `_jittered`. -/
def jittered (basePrice : PyDecimal) (jitter : Jitter) : Except DecimalException PyDecimal := do
  let factor ← add (.finite false 1 0) jitter.decimal
  let product ← mul basePrice factor
  quantizeLike product basePrice

/-- The price of a trade: the recorded one, or as in the loops a nudged one. -/
def priceAt (basePrice : PyDecimal) : Option Jitter → Except DecimalException PyDecimal
  | none => pure basePrice
  | some jitter => jittered basePrice jitter

/-- A turn of one of the loops, or a burst that is asked for, with what is drawn in it. -/
inductive Act
  | poll (symbol : PyStr) (body : Json) (now : Aware)
  | trade (symbol : PyStr) (nudge : Option Jitter) (buys : Bool) (i : ℕ) (draw : Draw) (now : Aware)
  | burst (symbol : PyStr) (nudge : Option Jitter) (buys : Bool) (i : ℕ) (draws : List Draw)
    (now : Aware)

/-- The turn is a trade or a burst of trades. -/
def Act.isTrade : Act → Bool
  | .poll _ _ _ => false
  | _ => true

namespace AppState

/-- The producer as it starts. -/
def start (accounts : List PyStr) (thresholdPct : PyDecimal) : AppState :=
  ⟨.start thresholdPct, ⟨accounts, fun _ => none⟩⟩

variable (printable : CodePoint → Bool)

/-- A body that is not a price is skipped, and so is a trade in a symbol without a price. -/
def step (s : AppState) : Act → Except TradeError AppState
  | .poll symbol body now =>
    match parseSpotPrice printable body with
    | none => pure s
    | some price => do
      let (tracker, _) ← .mapError .decimal (s.tracker.observe .context symbol price now)
      pure { s with tracker }
  | .trade symbol nudge buys i draw now =>
    match s.tracker.latest symbol with
    | none => pure s
    | some basePrice => do
      let price ← .mapError .decimal (priceAt basePrice nudge)
      let (trades, _) ← s.trades.nextTrade symbol price buys i draw now
      pure { s with trades }
  | .burst symbol nudge buys i draws now =>
    match s.tracker.latest symbol with
    | none => pure s
    | some basePrice => do
      let price ← .mapError .decimal (priceAt basePrice nudge)
      let (trades, _) ← s.trades.burstSameAccount symbol price buys i draws now
      pure { s with trades }

/-- The turns one after the other. -/
def run (s : AppState) : List Act → Except TradeError AppState
  | [] => pure s
  | act :: acts => do
    let s' ← s.step printable act
    s'.run acts

end AppState

/-! ## Prices that can be traded -/

/-- The greatest quantity at this price has at most 28 digits. -/
def Tradable (v : ℚ) : Prop := v ≤ 0 ∨ 1500 < v * (10 ^ 20 - 1 / (2 * 10 ^ 8))

section Tradable

variable {q v : ℚ} {price : PyDecimal} {account symbol side : PyStr} {draw : Draw} {now : Aware}

theorem Draw.value?_decimal (draw : Draw) :
    draw.decimal.value? = some (draw.notional / 100 : ℚ) := by
  unfold Draw.decimal
  split_ifs with h
  · have hten : (draw.notional : ℚ) = 10 * (draw.notional / 10 : ℕ) := by
      have : draw.notional = 10 * (draw.notional / 10) := by omega
      exact_mod_cast this
    simp only [value?, Bool.false_eq_true, if_false, hten, Option.some.injEq]
    norm_num
    ring
  · simp only [value?, Bool.false_eq_true, if_false, Option.some.injEq]
    norm_num
    ring

/-- From `10 ^ 19` to `10 ^ 20` the last of 28 digits is the eighth decimal. -/
theorem place_eq_of_lt (hle : (10 : ℚ) ^ 19 ≤ q) (hlt : q < 10 ^ 20) : place q = -8 := by
  have hpos : 0 < q := lt_of_lt_of_le (by positivity) hle
  have hlog : Int.log 10 q = 19 := by
    have hge : (19 : ℤ) ≤ Int.log 10 q := by
      rw [← Int.zpow_le_iff_le_log (by norm_num) hpos]
      exact_mod_cast hle
    have hlt' : Int.log 10 q < 20 := by
      rw [← Int.lt_zpow_iff_log_lt (by norm_num) hpos]
      exact_mod_cast hlt
    omega
  rw [place, abs_of_pos hpos, hlog]
  rfl

theorem rounded_mul_of_lt (hle : (10 : ℚ) ^ 19 ≤ q) (hlt : q < 10 ^ 20) :
    rounded q * 10 ^ 8 = roundEven (q * 10 ^ 8) := by
  have hunit : (10 : ℚ) ^ (-8 : ℤ) = 1 / 10 ^ 8 := by norm_num
  have hdiv : q / 10 ^ (-8 : ℤ) = q * 10 ^ 8 := by rw [hunit, div_div_eq_mul_div, div_one]
  rw [rounded, place_eq_of_lt hle hlt, hdiv, hunit, mul_assoc, one_div_mul_cancel (by positivity),
    mul_one]

/-- **A quotient in eight decimals** has at most 28 digits. -/
theorem roundEven_rounded_lt_iff (hq : 0 ≤ q) :
    roundEven (|rounded q| * 10 ^ 8) < 10 ^ precision ↔ q < 10 ^ 20 - 1 / (2 * 10 ^ 8) := by
  rw [abs_of_nonneg (rounded_nonneg hq)]
  rcases lt_or_ge q (10 ^ 19) with hsmall | hge
  · refine iff_of_true ?_ (hsmall.trans (by norm_num))
    have hround : rounded q ≤ 10 ^ 19 := by
      exact_mod_cast rounded_le_zpow (k := 19) hq (by exact_mod_cast hsmall.le) (by decide)
    have hle : roundEven (rounded q * 10 ^ 8) ≤ 10 ^ 27 := roundEven_le (by
      push_cast
      linarith)
    exact hle.trans_lt (by unfold precision; norm_num)
  · rcases lt_or_ge q (10 ^ 20) with hlt | hlarge
    · rw [rounded_mul_of_lt hge hlt, roundEven_intCast]
      have heven : (2 : ℤ) ∣ 10 ^ precision := by
        unfold precision
        norm_num
      constructor
      · intro h
        by_contra hq'
        have := le_roundEven_of_even (q := q * 10 ^ 8) heven (by
          unfold precision
          push_cast
          linarith)
        omega
      · intro h
        have := roundEven_le_add_half (q * 10 ^ 8)
        have hscaled : q * 10 ^ 8 < (10 ^ 20 - 1 / (2 * 10 ^ 8)) * 10 ^ 8 :=
          mul_lt_mul_of_pos_right h (by positivity)
        have hbound : ((10 : ℚ) ^ 20 - 1 / (2 * 10 ^ 8)) * 10 ^ 8 = 10 ^ 28 - 1 / 2 := by norm_num
        rw [hbound] at hscaled
        have hlt' : (roundEven (q * 10 ^ 8) : ℚ) < 10 ^ precision := by
          unfold precision
          generalize q * 10 ^ 8 = x at this hscaled ⊢
          linarith
        exact_mod_cast hlt'
    · refine iff_of_false ?_ (by linarith)
      have hround : (10 : ℚ) ^ 20 ≤ rounded q := by
        exact_mod_cast zpow_le_rounded (k := 20) (by exact_mod_cast hlarge) (by decide)
      refine not_lt.2 (le_roundEven ?_)
      unfold precision
      push_cast
      linarith

theorem value?_zero : value? (.finite false 0 0) = some 0 := by
  simp [value?]

/-- The quotient that a quantity is made of. -/
theorem quantity_of_pos (hv : price.value? = some v) (hpos : 0 < v) :
    TradeGenerator.quantity price draw = (div draw.decimal price >>= quantize 8) := by
  have hle : le price (.finite false 0 0) = .ok false := by
    rw [le_of_value? hv value?_zero, decide_eq_false (not_le.2 hpos)]
  rw [TradeGenerator.quantity, hle]
  rfl

theorem quantity_of_nonpos (hv : price.value? = some v) (hle : v ≤ 0) :
    TradeGenerator.quantity price draw = .ok (.finite false 0 0) := by
  rw [TradeGenerator.quantity, le_of_value? hv value?_zero, decide_eq_true hle]
  rfl

/-- What a draw of this notional buys, up to rounding. -/
theorem quotient_lt (hpos : 0 < v) (h : 1500 < v * (10 ^ 20 - 1 / (2 * 10 ^ 8))) (draw : Draw) :
    (draw.notional / 100 : ℚ) / v < 10 ^ 20 - 1 / (2 * 10 ^ 8) := by
  rw [div_lt_iff₀ hpos]
  have hmax : (draw.notional : ℚ) ≤ 150000 := by exact_mod_cast draw.notional_mem.2
  linarith

/-- **A quantity is worth little**: up to rounding it costs the notional, and at a great price it is
rounded to 0. -/
theorem cost_le {q v : ℚ} (hpos : 0 < v) (hq : 0 ≤ q) (hqv : q * v ≤ 1500) :
    roundEven (rounded q * 10 ^ 8) / 10 ^ 8 * v ≤ 10 ^ 20 := by
  have htiny : (10 : ℚ) ^ etiny ≤ 1 / 10 ^ 12 := by
    have := zpow_le_zpow_right₀ (by norm_num : (1 : ℚ) ≤ 10) (by decide : etiny ≤ -12)
    refine this.trans ?_
    norm_num
  have hround := rounded_le_add hq
  have hhalf := roundEven_le_add_half (rounded q * 10 ^ 8)
  generalize hn : roundEven (rounded q * 10 ^ 8) = n at hhalf ⊢
  rcases le_or_gt v (10 ^ 12) with hsmall | hlarge
  · have hquantity : (n : ℚ) / 10 ^ 8 ≤ 2 * q + 1 := by
      rw [div_le_iff₀ (by positivity)]
      linarith
    have hmul := mul_le_mul_of_nonneg_right hquantity hpos.le
    linarith
  · have hq' : q ≤ 1500 / 10 ^ 12 := by
      rw [le_div_iff₀ (by positivity)]
      exact (mul_le_mul_of_nonneg_left hlarge.le hq).trans hqv
    have hlt : (n : ℚ) < 1 := by linarith
    have hzero : n ≤ 0 := by
      have : n < 1 := by exact_mod_cast hlt
      omega
    have hzero' : (n : ℚ) ≤ 0 := by exact_mod_cast hzero
    have hnonpos := mul_nonpos_of_nonpos_of_nonneg
      (div_nonpos_of_nonpos_of_nonneg hzero' (by positivity : (0 : ℚ) ≤ 10 ^ 8)) hpos.le
    linarith

/-- The quantity of a trade, and what it costs. -/
theorem exists_quantity (hv : price.value? = some v) (h : Tradable v) (draw : Draw) :
    ∃ x b, TradeGenerator.quantity price draw = .ok x ∧ x.value? = some b ∧ |b * v| ≤ 10 ^ 20 := by
  rcases le_or_gt v 0 with hle | hpos
  · exact ⟨_, 0, quantity_of_nonpos hv hle, value?_zero, by norm_num⟩
  · have hbound := quotient_lt hpos (h.resolve_left (not_le.2 hpos)) draw
    have hnonneg : 0 ≤ (draw.notional / 100 : ℚ) / v := by positivity
    have hcost : (draw.notional / 100 : ℚ) / v * v ≤ 1500 := by
      rw [div_mul_cancel₀ _ hpos.ne']
      have hmax : (draw.notional : ℚ) ≤ 150000 := by exact_mod_cast draw.notional_mem.2
      linarith
    have hfits : Fits ((draw.notional / 100 : ℚ) / v) := by
      refine fits_of_le (k := 20) ?_ (by decide) (by decide)
      rw [abs_of_nonneg hnonneg]
      have : (0 : ℚ) < 1 / (2 * 10 ^ 8) := by positivity
      exact_mod_cast (by linarith : (draw.notional / 100 : ℚ) / v ≤ 10 ^ 20)
    obtain ⟨ratio, hratio, hvalue⟩ :=
      exists_of_ofRat (div_eq_ofRat draw.value?_decimal hv hpos.ne') hfits
    obtain ⟨x, hx⟩ := (quantize_of_value? hvalue (by decide)).2
      ((roundEven_rounded_lt_iff hnonneg).2 hbound)
    refine ⟨x, _, ?_, value?_of_quantize hvalue hx, ?_⟩
    · rw [quantity_of_pos hv hpos, hratio]
      exact hx
    · have hround := roundEven_nonneg (mul_nonneg (rounded_nonneg hnonneg)
        (by positivity : (0 : ℚ) ≤ 10 ^ 8))
      have hquantity := div_nonneg (Int.cast_nonneg hround) (by positivity : (0 : ℚ) ≤ 10 ^ 8)
      rw [abs_of_nonneg (mul_nonneg hquantity hpos.le)]
      exact cost_le hpos hnonneg hcost

/-- **A trade at a tradable price** is made, whatever is drawn. -/
theorem exists_trade (hv : price.value? = some v) (h : Tradable v) (account symbol side : PyStr)
    (draw : Draw) (now : Aware) :
    ∃ event, TradeGenerator.trade account symbol price side draw now = .ok event := by
  obtain ⟨x, b, hx, hb, hcost⟩ := exists_quantity hv h draw
  have hfits : Fits (b * v) :=
    fits_of_le (k := 20) (by exact_mod_cast hcost) (by decide) (by decide)
  obtain ⟨product, hproduct, hvalue⟩ := exists_of_ofRat (mul_eq_ofRat hb hv) hfits
  have hdigits : roundEven (|rounded (b * v)| * 10 ^ 2) < 10 ^ precision := by
    have hround : |rounded (b * v)| ≤ 10 ^ 20 := by
      rw [abs_rounded]
      exact_mod_cast rounded_le_zpow (k := 20) (abs_nonneg _) (by exact_mod_cast hcost) (by decide)
    have hle : roundEven (|rounded (b * v)| * 10 ^ 2) ≤ 10 ^ 22 := roundEven_le (by
      push_cast
      linarith)
    exact hle.trans_lt (by unfold precision; norm_num)
  obtain ⟨amount, hamount⟩ := (quantize_of_value? hvalue (by decide)).2 hdigits
  exact ⟨_, mapError_eq_ok_iff.2 (bind_eq_ok_iff.2 ⟨x, hx, bind_eq_ok_iff.2 ⟨product, hproduct,
    bind_eq_ok_iff.2 ⟨amount, hamount, rfl⟩⟩⟩)⟩

/-- A price that is no number is not traded. -/
theorem exists_value?_of_trade {event : Event}
    (h : TradeGenerator.trade account symbol price side draw now = .ok event) :
    ∃ v, price.value? = some v := by
  obtain ⟨x, hx, h⟩ := bind_eq_ok_iff.1 (mapError_eq_ok_iff.1 h)
  obtain ⟨product, hproduct, -⟩ := bind_eq_ok_iff.1 h
  cases price with
  | finite s m e => exact ⟨_, rfl⟩
  | nan signalling => cases hx
  | infinity s =>
    cases s with
    | true =>
      obtain rfl : PyDecimal.finite false 0 0 = x := Except.ok.inj hx
      cases hproduct
    | false =>
      have hpositive : gt (.infinity false) (.finite false 0 0) = .ok true := by decide
      obtain ⟨c, e, rfl, hzero⟩ := exists_of_quantity hpositive hx
      rw [hzero rfl] at hproduct
      cases hproduct

/-- The draw of 1500 dollars. -/
def Draw.greatest : Draw := ⟨150000, by decide, []⟩

/-- A price at which 1500 dollars can be traded. -/
theorem tradable_of_trade {event : Event} (hv : price.value? = some v)
    (h : TradeGenerator.trade account symbol price side .greatest now = .ok event) :
    Tradable v := by
  obtain ⟨x, hx, -⟩ := bind_eq_ok_iff.1 (mapError_eq_ok_iff.1 h)
  rcases le_or_gt v 0 with hle | hpos
  · exact .inl hle
  · rw [quantity_of_pos hv hpos] at hx
    obtain ⟨ratio, hratio, hquantize⟩ := bind_eq_ok_iff.1 hx
    have hnotional : Draw.greatest.decimal.value? = some 1500 := by
      rw [Draw.value?_decimal]
      norm_num [Draw.greatest]
    have hvalue := (of_eq_ofRat (div_eq_ofRat hnotional hv hpos.ne') hratio).2
    have hlt := (roundEven_rounded_lt_iff (by positivity)).1
      ((quantize_of_value? hvalue (by decide)).1 ⟨x, hquantize⟩)
    rw [div_lt_iff₀ hpos] at hlt
    right
    linarith

end Tradable

/-! ## Prices that can be nudged -/

/-- The exact price that a jitter makes of `v`. -/
def nudged (v : ℚ) (k : ℤ) : ℚ := v * (1 + k / 10 ^ 6)

/-- A price of this value and exponent can be nudged by any jitter, and be traded then. -/
def Nudges (v : ℚ) (exponent : ℤ) : Prop :=
  ∀ k : ℤ, |k| ≤ 2000 → Fits (nudged v k) ∧
    Scales exponent (roundEven (rounded (nudged v k) / 10 ^ exponent)).natAbs ∧
    Tradable (roundEven (rounded (nudged v k) / 10 ^ exponent) * 10 ^ exponent)

section Nudges

variable {s : Bool} {m : ℕ} {e : ℤ} {jitter : Jitter} {x : PyDecimal}

theorem Jitter.value?_decimal (jitter : Jitter) :
    jitter.decimal.value? = some (jitter.1 / 10 ^ 6 : ℚ) := by
  obtain ⟨k, hk⟩ := jitter
  unfold Jitter.decimal
  dsimp only
  split_ifs with hzero
  · simp [value?, hzero]
  · obtain ⟨c, hc⟩ : 10 ^ trailingZeros k.natAbs ∣ k.natAbs :=
      Nat.findGreatest_spec (P := (10 ^ · ∣ k.natAbs)) (Nat.zero_le _) (by simp)
    generalize trailingZeros k.natAbs = z at hc ⊢
    have hdiv : k.natAbs / 10 ^ z = c := by
      rw [hc]
      exact Nat.mul_div_cancel_left c (by positivity)
    have hcast : (k.natAbs : ℚ) = 10 ^ z * c := by exact_mod_cast hc
    have hvalue : (c : ℚ) * 10 ^ ((z : ℤ) - 6) = k.natAbs / 10 ^ 6 := by
      rw [zpow_sub₀ (by norm_num), zpow_natCast, hcast]
      norm_num
      ring
    simp only [value?, hdiv, hvalue, Option.some.injEq, decide_eq_true_eq]
    split_ifs with hneg
    · have habs : (k.natAbs : ℚ) = -k := by
        rw [← Int.cast_natCast, Int.ofNat_natAbs_of_nonpos hneg.le, Int.cast_neg]
      rw [habs, neg_div, neg_neg]
    · have habs : (k.natAbs : ℚ) = k := by
        rw [← Int.cast_natCast, Int.natAbs_of_nonneg (not_lt.1 hneg)]
      rw [habs]

/-- The factor is exact. -/
theorem exists_factor (jitter : Jitter) :
    ∃ factor, add (.finite false 1 0) jitter.decimal = .ok factor ∧
      factor.value? = some (1 + jitter.1 / 10 ^ 6 : ℚ) := by
  have hone : value? (.finite false 1 0) = some 1 := by simp [value?]
  obtain ⟨k, hk⟩ := jitter
  have hbounds := abs_le.1 hk
  have hlower : (-2000 : ℚ) ≤ k := by exact_mod_cast hbounds.1
  have hupper : (k : ℚ) ≤ 2000 := by exact_mod_cast hbounds.2
  have hpos : (0 : ℚ) < 1 + k / 10 ^ 6 := by linarith
  have hle : (1 + k / 10 ^ 6 : ℚ) ≤ 10 ^ (1 : ℤ) := by
    rw [zpow_one]
    linarith
  have hgrid : (1 + k / 10 ^ 6 : ℚ) = ((10 ^ 6 + k : ℤ) : ℚ) * 10 ^ (-6 : ℤ) := by
    push_cast
    norm_num
    ring
  have hexact : rounded (1 + k / 10 ^ 6 : ℚ) = 1 + k / 10 ^ 6 :=
    rounded_eq_self_of_le hgrid ((place_le hpos hle).trans (by decide))
  have hfits : Fits (1 + k / 10 ^ 6 : ℚ) := by
    refine fits_of_le (k := 1) ?_ (by decide) (by decide)
    rwa [abs_of_pos hpos]
  obtain ⟨factor, hfactor, hvalue⟩ := exists_of_ofRat
    (add_eq_ofRat hone (Jitter.value?_decimal ⟨k, hk⟩)) hfits
  rw [hexact] at hvalue
  exact ⟨factor, hfactor, hvalue⟩

/-- **A nudged price**: when it is computed, and what it is. -/
theorem exists_jittered_iff : (∃ x, jittered (.finite s m e) jitter = .ok x) ↔
    Fits (nudged (number s m e) jitter.1) ∧
      Scales e (roundEven (rounded (nudged (number s m e) jitter.1) / 10 ^ e)).natAbs := by
  obtain ⟨factor, hfactor, hvalue⟩ := exists_factor jitter
  have hmul := mul_eq_ofRat (value?_eq_some_iff.2 ⟨s, m, e, rfl, rfl⟩) hvalue
  constructor
  · rintro ⟨x, h⟩
    obtain ⟨factor', hfactor', h⟩ := bind_eq_ok_iff.1 h
    obtain rfl := Except.ok.inj (hfactor.symm.trans hfactor')
    obtain ⟨product, hproduct, h⟩ := bind_eq_ok_iff.1 h
    obtain ⟨hfits, hproductValue⟩ := of_eq_ofRat hmul hproduct
    exact ⟨hfits, (quantizeTo_eq_ok_iff hproductValue).1 ⟨x, h⟩⟩
  · rintro ⟨hfits, hscales⟩
    obtain ⟨product, hproduct, hproductValue⟩ := exists_of_ofRat hmul hfits
    obtain ⟨x, hx⟩ := (quantizeTo_eq_ok_iff hproductValue).2 hscales
    exact ⟨x, bind_eq_ok_iff.2 ⟨factor, hfactor, bind_eq_ok_iff.2 ⟨product, hproduct, hx⟩⟩⟩

theorem value?_of_jittered (h : jittered (.finite s m e) jitter = .ok x) :
    x.value? = some
      ((roundEven (rounded (nudged (number s m e) jitter.1) / 10 ^ e) : ℚ) * 10 ^ e) := by
  obtain ⟨factor, hfactor, hvalue⟩ := exists_factor jitter
  have hmul := mul_eq_ofRat (value?_eq_some_iff.2 ⟨s, m, e, rfl, rfl⟩) hvalue
  obtain ⟨factor', hfactor', h⟩ := bind_eq_ok_iff.1 h
  obtain rfl := Except.ok.inj (hfactor.symm.trans hfactor')
  obtain ⟨product, hproduct, h⟩ := bind_eq_ok_iff.1 h
  exact value?_of_quantizeTo (of_eq_ofRat hmul hproduct).2 h

/-- A number that can be traded, as it is and nudged. -/
def Marketable (price : PyDecimal) : Prop :=
  ∃ s m e, price = .finite s m e ∧ Tradable (number s m e) ∧ Nudges (number s m e) e

/-- **The price of a trade** at a marketable price. -/
theorem Marketable.exists_priceAt {price : PyDecimal} (h : Marketable price)
    (nudge : Option Jitter) :
    ∃ x w, priceAt price nudge = .ok x ∧ x.value? = some w ∧ Tradable w := by
  obtain ⟨s, m, e, rfl, htradable, hnudges⟩ := h
  cases nudge with
  | none => exact ⟨_, _, rfl, value?_eq_some_iff.2 ⟨s, m, e, rfl, rfl⟩, htradable⟩
  | some jitter =>
    obtain ⟨hfits, hscales, htradable'⟩ := hnudges jitter.1 jitter.2
    obtain ⟨x, hx⟩ := exists_jittered_iff.2 ⟨hfits, hscales⟩
    exact ⟨x, _, hx, value?_of_jittered hx, htradable'⟩

theorem Marketable.exists_value? {price : PyDecimal} (h : Marketable price) :
    ∃ v, price.value? = some v := by
  obtain ⟨s, m, e, rfl, -⟩ := h
  exact ⟨_, rfl⟩

/-- A price at which 1500 dollars can be traded, however it is nudged. -/
theorem marketable_of_trades {price : PyDecimal}
    (h : ∀ nudge, ∃ x, priceAt price nudge = .ok x ∧ ∃ account symbol side now event,
      TradeGenerator.trade account symbol x side .greatest now = .ok event) : Marketable price := by
  obtain ⟨x, hx, account, symbol, side, now, event, htrade⟩ := h none
  obtain rfl : price = x := Except.ok.inj hx
  obtain ⟨v, hv⟩ := exists_value?_of_trade htrade
  obtain ⟨s, m, e, rfl, rfl⟩ := value?_eq_some_iff.1 hv
  refine ⟨s, m, e, rfl, tradable_of_trade hv htrade, fun k hk => ?_⟩
  obtain ⟨x, hx, account, symbol, side, now, event, htrade⟩ := h (some ⟨k, hk⟩)
  obtain ⟨hfits, hscales⟩ := exists_jittered_iff.1 ⟨x, hx⟩
  have hvalue := value?_of_jittered hx
  have htradable := tradable_of_trade hvalue htrade
  exact ⟨hfits, hscales, htradable⟩

/-- A price of 100 in whole dollars is nudged to itself. -/
theorem marketable_hundred : Marketable (.finite false 100 0) := by
  have hnumber : number false 100 0 = 100 := by simp [number]
  refine ⟨false, 100, 0, rfl, .inr (by norm_num [hnumber]), fun k hk => ?_⟩
  rw [hnumber]
  have hbounds := abs_le.1 hk
  have hlower : (-2000 : ℚ) ≤ k := by exact_mod_cast hbounds.1
  have hupper : (k : ℚ) ≤ 2000 := by exact_mod_cast hbounds.2
  have hvalue : nudged 100 k = 100 + k / 10 ^ 4 := by
    unfold nudged
    ring
  have hpos : 0 < nudged 100 k := by
    rw [hvalue]
    linarith
  have hle : nudged 100 k ≤ 10 ^ (3 : ℤ) := by
    rw [hvalue]
    norm_num
    linarith
  have hgrid : nudged 100 k = ((10 ^ 6 + k : ℤ) : ℚ) * 10 ^ (-4 : ℤ) := by
    rw [hvalue]
    push_cast
    norm_num
    ring
  have hexact : rounded (nudged 100 k) = nudged 100 k :=
    rounded_eq_self_of_le hgrid ((place_le hpos hle).trans (by decide))
  have hround : roundEven (rounded (nudged 100 k) / 10 ^ (0 : ℤ)) = 100 := by
    rw [hexact, zpow_zero, div_one, hvalue]
    have hhalf := roundEven_le_add_half (100 + k / 10 ^ 4 : ℚ)
    have hge : (100 : ℤ) ≤ roundEven (100 + k / 10 ^ 4 : ℚ) :=
      le_roundEven_of_even (by decide) (by push_cast; linarith)
    have hlt : (roundEven (100 + k / 10 ^ 4 : ℚ) : ℚ) < (101 : ℤ) := by
      push_cast
      linarith
    have hlt' : roundEven (100 + k / 10 ^ 4 : ℚ) < 101 := by exact_mod_cast hlt
    omega
  rw [hround]
  refine ⟨fits_of_le (k := 3) ?_ (by decide) (by decide), by decide, .inr (by norm_num)⟩
  rwa [abs_of_pos hpos]

end Nudges

/-! ## Moves that can be computed -/

/-- The percentage of the move is computed without an overflow. -/
def PctFits (prev curr : ℚ) : Prop :=
  prev ≠ 0 → Fits (curr - prev) ∧ Fits (rounded (curr - prev) / prev) ∧
    Fits (rounded (rounded (curr - prev) / prev) * 100)

section Moves

variable {prev curr threshold : PyDecimal} {p c : ℚ} {symbol : PyStr} {now : Aware}

/-- **The percentage in the context.** -/
theorem exists_pctChange (hp : prev.value? = some p) (hc : curr.value? = some c)
    (h : PctFits p c) :
    ∃ x a, pctChange .context prev curr = .ok x ∧ x.value? = some (rounded a) ∧ Fits a := by
  have hzero : Arithmetic.context.eq prev (Arithmetic.context.ofNat 0) = .ok (decide (p = 0)) :=
    eq_of_value? hp value?_zero
  by_cases hp0 : p = 0
  · refine ⟨.finite false 0 0, 0, ?_, ?_, ?_⟩
    · rw [pctChange, hzero, decide_eq_true hp0]
      rfl
    · rw [rounded_zero, value?_zero]
    · exact fits_of_le (k := 0) (by norm_num) (by decide) (by decide)
  · obtain ⟨hsub, hdiv, hmul⟩ := h hp0
    obtain ⟨change, hchange, hchangeValue⟩ := exists_of_ofRat (sub_eq_ofRat hc hp) hsub
    obtain ⟨ratio, hratio, hratioValue⟩ := exists_of_ofRat (div_eq_ofRat hchangeValue hp hp0) hdiv
    have hhundred : value? (.finite false 100 0) = some 100 := by simp [value?]
    obtain ⟨pct, hpct, hpctValue⟩ := exists_of_ofRat (mul_eq_ofRat hratioValue hhundred) hmul
    refine ⟨pct, _, ?_, hpctValue, hmul⟩
    rw [pctChange, hzero, decide_eq_false hp0]
    exact bind_eq_ok_iff.2 ⟨false, rfl, bind_eq_ok_iff.2 ⟨change, hchange,
      bind_eq_ok_iff.2 ⟨ratio, hratio, hpct⟩⟩⟩

theorem pctFits_of_pctChange (hp : prev.value? = some p) (hc : curr.value? = some c)
    {x : PyDecimal} (h : pctChange .context prev curr = .ok x) : PctFits p c := by
  intro hp0
  have hzero : Arithmetic.context.eq prev (Arithmetic.context.ofNat 0) = .ok (decide (p = 0)) :=
    eq_of_value? hp value?_zero
  rw [pctChange, hzero, decide_eq_false hp0, ok_bind, if_neg Bool.false_ne_true] at h
  obtain ⟨change, hchange, h⟩ := bind_eq_ok_iff.1 h
  obtain ⟨ratio, hratio, hpct⟩ := bind_eq_ok_iff.1 h
  have hhundred : value? (.finite false 100 0) = some 100 := by simp [value?]
  obtain ⟨hsub, hchangeValue⟩ := of_eq_ofRat (sub_eq_ofRat hc hp) hchange
  obtain ⟨hdiv, hratioValue⟩ := of_eq_ofRat (div_eq_ofRat hchangeValue hp hp0) hratio
  exact ⟨hsub, hdiv, (of_eq_ofRat (mul_eq_ofRat hratioValue hhundred) hpct).1⟩

theorem exists_tickDirection {change : PyDecimal} {a : ℚ} (h : change.value? = some a) :
    ∃ direction, tickDirection .context change = .ok direction := by
  have heq : Arithmetic.context.eq change (Arithmetic.context.ofNat 0) = .ok (decide (a = 0)) :=
    eq_of_value? h value?_zero
  have hgt : Arithmetic.context.gt change (Arithmetic.context.ofNat 0) = .ok (decide (0 < a)) :=
    gt_of_value? h value?_zero
  unfold tickDirection
  rw [heq]
  cases decide (a = 0) with
  | true => exact ⟨_, rfl⟩
  | false => exact ⟨_, bind_eq_ok_iff.2 ⟨false, rfl, bind_eq_ok_iff.2 ⟨_, hgt, rfl⟩⟩⟩

/-- The tick of a price after another. -/
theorem exists_buildTickEvent (hp : prev.value? = some p) (hc : curr.value? = some c)
    (hfits : Fits (c - p)) (hpct : PctFits p c) (symbol : PyStr) (now : Aware) :
    ∃ tick, buildTickEvent .context symbol curr (some prev) now = .ok tick := by
  obtain ⟨change, hchange, hvalue⟩ := exists_of_ofRat (sub_eq_ofRat hc hp) hfits
  obtain ⟨pct, -, hpctChange, -, -⟩ := exists_pctChange hp hc hpct
  obtain ⟨direction, hdirection⟩ := exists_tickDirection hvalue
  exact ⟨_, bind_eq_ok_iff.2 ⟨(change, pct), bind_eq_ok_iff.2 ⟨change, hchange,
    bind_eq_ok_iff.2 ⟨pct, hpctChange, rfl⟩⟩, bind_eq_ok_iff.2 ⟨direction, hdirection, rfl⟩⟩⟩

theorem exists_abs {x : PyDecimal} {a : ℚ} (hx : x.value? = some (rounded a)) (ha : Fits a) :
    ∃ y b, abs x = .ok y ∧ y.value? = some b := by
  obtain ⟨ideal, hideal⟩ := abs_eq_ofRat hx
  have hfits : Fits |rounded a| := by
    unfold Fits
    rw [abs_abs]
    exact fits_rounded ha
  obtain ⟨y, hy, hvalue⟩ := exists_of_ofRat ⟨false, ideal, hideal⟩ hfits
  exact ⟨y, _, hy, hvalue⟩

/-- The comparison with the threshold. -/
theorem exists_crosses (hthreshold : threshold.rank? ≠ none) (hp : prev.value? = some p)
    (hc : curr.value? = some c) (hpct : PctFits p c) :
    ∃ crossed, crosses .context threshold prev curr = .ok crossed := by
  obtain ⟨pct, a, hpctChange, hvalue, hfits⟩ := exists_pctChange hp hc hpct
  obtain ⟨size, b, hsize, hsizeValue⟩ := exists_abs hvalue hfits
  obtain ⟨r, hr⟩ := Option.ne_none_iff_exists'.1 hthreshold
  have hge : ge size threshold = .ok (decide (r.1 < 0 ∨ r.1 = 0 ∧ r.2 ≤ b)) := by
    rw [ge, rank?_of_value? hsizeValue, hr]
  exact ⟨_, bind_eq_ok_iff.2 ⟨pct, hpctChange, bind_eq_ok_iff.2 ⟨size, hsize, hge⟩⟩⟩

theorem exists_buildAlertEvent (hp : prev.value? = some p) (hc : curr.value? = some c)
    (hpct : PctFits p c) (symbol : PyStr) (threshold : PyDecimal) (now : Aware) :
    ∃ alert, buildAlertEvent .context symbol curr prev threshold now = .ok alert := by
  obtain ⟨pct, a, hpctChange, hvalue, hfits⟩ := exists_pctChange hp hc hpct
  obtain ⟨size, b, hsize, -⟩ := exists_abs hvalue hfits
  have hgt : Arithmetic.context.gt pct (Arithmetic.context.ofNat 0) =
      .ok (decide (0 < rounded a)) :=
    gt_of_value? hvalue value?_zero
  exact ⟨_, bind_eq_ok_iff.2 ⟨pct, hpctChange, bind_eq_ok_iff.2 ⟨_, hgt,
    bind_eq_ok_iff.2 ⟨size, hsize, rfl⟩⟩⟩⟩

end Moves

/-! ## Runs -/

namespace AppState

/-- **A price that does no harm**: a number at which can be traded, and whose moves from the last
price and from the anchor can be computed. -/
def Admissible (s : AppState) (symbol : PyStr) (price : PyDecimal) : Prop :=
  Marketable price ∧ ∀ state, s.tracker.states symbol = some state →
    ∀ v l a, price.value? = some v → state.last.value? = some l → state.anchor.value? = some a →
      Fits (v - l) ∧ PctFits l v ∧ PctFits a v

section Runs

variable (printable : CodePoint → Bool)

/-- The prices of all polls are admissible where they are taken in. -/
def AdmissibleRun (s : AppState) : List Act → Prop
  | [] => True
  | act :: acts =>
    (∀ symbol body now, act = .poll symbol body now → ∀ price,
      parseSpotPrice printable body = some price → s.Admissible symbol price) ∧
    ∀ s', s.step printable act = .ok s' → s'.AdmissibleRun acts

/-- All that is recorded is a number, and the last prices can be traded. -/
structure Sound (s : AppState) : Prop where
  accounts : s.trades.accounts ≠ []
  threshold : s.tracker.thresholdPct.rank? ≠ none
  last : ∀ symbol state, s.tracker.states symbol = some state → Marketable state.last
  anchor : ∀ symbol state, s.tracker.states symbol = some state → ∃ a, state.anchor.value? = some a
  lastPrice : ∀ symbol price, s.trades.lastPrice symbol = some price → ∃ v, price.value? = some v

end Runs

variable {printable : CodePoint → Bool} {s s' : AppState} {symbol : PyStr} {price : PyDecimal}
  {now : Aware} {act : Act}

theorem sound_start {accounts : List PyStr} {thresholdPct : PyDecimal} (haccounts : accounts ≠ [])
    (hthreshold : thresholdPct.rank? ≠ none) : (start accounts thresholdPct).Sound where
  accounts := haccounts
  threshold := hthreshold
  last _ _ h := nomatch h
  anchor _ _ h := nomatch h
  lastPrice _ _ h := nomatch h

/-! ### Polls -/

/-- **An admissible price** is taken in. -/
theorem Sound.exists_observe (hs : s.Sound) (h : s.Admissible symbol price) (now : Aware) :
    ∃ r, s.tracker.observe .context symbol price now = .ok r := by
  obtain ⟨hmarketable, hmoves⟩ := h
  obtain ⟨v, hv⟩ := hmarketable.exists_value?
  unfold PriceTracker.observe
  cases hstate : s.tracker.states symbol with
  | none =>
    obtain ⟨direction, hdirection⟩ := exists_tickDirection value?_zero
    exact ⟨_, bind_eq_ok_iff.2 ⟨_, bind_eq_ok_iff.2 ⟨(.finite false 0 0, .finite false 0 0), rfl,
      bind_eq_ok_iff.2 ⟨direction, hdirection, rfl⟩⟩, rfl⟩⟩
  | some state =>
    obtain ⟨l, hl⟩ := (hs.last symbol state hstate).exists_value?
    obtain ⟨a, ha⟩ := hs.anchor symbol state hstate
    obtain ⟨hfits, hlast, hanchor⟩ := hmoves state hstate v l a hv hl ha
    obtain ⟨tick, htick⟩ := exists_buildTickEvent hl hv hfits hlast symbol now
    obtain ⟨crossed, hcrossed⟩ := exists_crosses hs.threshold ha hv hanchor
    obtain ⟨alert, halert⟩ := exists_buildAlertEvent ha hv hanchor symbol s.tracker.thresholdPct now
    cases crossed with
    | true =>
      exact ⟨_, bind_eq_ok_iff.2 ⟨tick, htick, bind_eq_ok_iff.2 ⟨true, hcrossed,
        bind_eq_ok_iff.2 ⟨alert, halert, rfl⟩⟩⟩⟩
    | false => exact ⟨_, bind_eq_ok_iff.2 ⟨tick, htick, bind_eq_ok_iff.2 ⟨false, hcrossed, rfl⟩⟩⟩

/-- What is recorded when a price is taken in: the price as the last, and as the anchor the price
or the anchor from before. -/
theorem exists_state_of_observe {t t' : PriceTracker PyDecimal} {events : List Event}
    (h : t.observe .context symbol price now = .ok (t', events)) :
    ∃ anchor, t' = t.set symbol ⟨price, anchor⟩ ∧
      (anchor = price ∨ ∃ state, t.states symbol = some state ∧ anchor = state.anchor) := by
  obtain ⟨tick, -, ⟨-, -, rfl⟩ | ⟨state, crossed, hstate, hmove⟩⟩ := of_observe h
  · exact ⟨price, rfl, .inl rfl⟩
  · cases crossed with
    | true => exact ⟨price, (hmove.of_crossed rfl).1, .inl rfl⟩
    | false => exact ⟨state.anchor, (hmove.of_quiet rfl).2, .inr ⟨state, hstate, rfl⟩⟩

/-- **Taking in an admissible price** keeps the records sound. -/
theorem Sound.observe (hs : s.Sound) (h : s.Admissible symbol price)
    {tracker : PriceTracker PyDecimal} {events : List Event}
    (hobserve : s.tracker.observe .context symbol price now = .ok (tracker, events)) :
    Sound { s with tracker } := by
  obtain ⟨hmarketable, -⟩ := h
  obtain ⟨anchor, rfl, hanchor⟩ := exists_state_of_observe hobserve
  have hvalue : ∃ a, anchor.value? = some a := by
    rcases hanchor with rfl | ⟨state, hstate, rfl⟩
    · exact hmarketable.exists_value?
    · exact hs.anchor symbol state hstate
  have hcases : ∀ other state, (s.tracker.set symbol ⟨price, anchor⟩).states other = some state →
      (state = ⟨price, anchor⟩) ∨ s.tracker.states other = some state := by
    intro other state hstate
    by_cases hother : other = symbol
    · subst hother
      rw [PriceTracker.states_set_self] at hstate
      exact .inl (Option.some.inj hstate).symm
    · rw [PriceTracker.states_set_of_ne _ hother] at hstate
      exact .inr hstate
  refine ⟨hs.accounts, hs.threshold, fun other state hstate => ?_, fun other state hstate => ?_,
    hs.lastPrice⟩
  · rcases hcases other state hstate with rfl | hold
    · exact hmarketable
    · exact hs.last other state hold
  · rcases hcases other state hstate with rfl | hold
    · exact hvalue
    · exact hs.anchor other state hold

/-! ### Trades -/

/-- With recorded prices that are numbers, a side is chosen. -/
theorem Sound.exists_side (hs : s.Sound) {v : ℚ} (hv : price.value? = some v) (symbol : PyStr)
    (buys : Bool) : ∃ side, s.trades.side symbol price buys = .ok side := by
  unfold TradeGenerator.side
  cases hprev : s.trades.lastPrice symbol with
  | none => exact ⟨_, rfl⟩
  | some prev =>
    obtain ⟨p, hp⟩ := hs.lastPrice symbol prev hprev
    have heq : eq prev price = .ok (decide (p = v)) := eq_of_value? hp hv
    have hgt : gt price prev = .ok (decide (p < v)) := gt_of_value? hv hp
    dsimp only
    rw [heq]
    cases decide (p = v) with
    | true => exact ⟨_, rfl⟩
    | false => exact ⟨_, bind_eq_ok_iff.2 ⟨false, rfl, bind_eq_ok_iff.2 ⟨_, hgt, rfl⟩⟩⟩

theorem Sound.exists_choose (hs : s.Sound) (i : ℕ) :
    ∃ account, s.trades.choose i = .ok account := by
  have hlt : i % s.trades.accounts.length < s.trades.accounts.length :=
    Nat.mod_lt _ (List.length_pos_iff.2 hs.accounts)
  exact ⟨_, orRaise_eq_ok_iff.2 (List.getElem?_eq_getElem hlt)⟩

theorem Sound.record (hs : s.Sound) {v : ℚ} (hv : price.value? = some v) (symbol : PyStr) :
    Sound { s with trades := s.trades.record symbol price } := by
  refine ⟨hs.accounts, hs.threshold, hs.last, hs.anchor, fun other old hold => ?_⟩
  unfold TradeGenerator.record at hold
  dsimp only at hold
  by_cases hother : other = symbol
  · subst hother
    rw [Function.update_self] at hold
    exact ⟨v, Option.some.inj hold ▸ hv⟩
  · rw [Function.update_of_ne hother] at hold
    exact hs.lastPrice other old hold

theorem Sound.marketable_of_latest (hs : s.Sound) (h : s.tracker.latest symbol = some price) :
    Marketable price := by
  obtain ⟨state, hstate, rfl⟩ := Option.map_eq_some_iff.1 h
  exact hs.last symbol state hstate

section Tradable

variable {v : ℚ} (hs : s.Sound) (hv : price.value? = some v) (htradable : Tradable v)

include hs hv htradable

/-- The next trade at a tradable price. -/
theorem Sound.exists_nextTrade (symbol : PyStr) (buys : Bool) (i : ℕ) (draw : Draw) (now : Aware) :
    ∃ event, s.trades.nextTrade symbol price buys i draw now =
      .ok (s.trades.record symbol price, event) := by
  obtain ⟨side, hside⟩ := hs.exists_side hv symbol buys
  obtain ⟨account, haccount⟩ := hs.exists_choose i
  obtain ⟨event, hevent⟩ := exists_trade hv htradable account symbol side draw now
  exact ⟨event, bind_eq_ok_iff.2 ⟨side, mapError_eq_ok_iff.2 hside,
    bind_eq_ok_iff.2 ⟨account, haccount, bind_eq_ok_iff.2 ⟨event, hevent, rfl⟩⟩⟩⟩

/-- A burst at a tradable price. -/
theorem Sound.exists_burst (symbol : PyStr) (buys : Bool) (i : ℕ) (draws : List Draw)
    (now : Aware) : ∃ events, s.trades.burstSameAccount symbol price buys i draws now =
      .ok (s.trades.record symbol price, events) := by
  obtain ⟨side, hside⟩ := hs.exists_side hv symbol buys
  obtain ⟨account, haccount⟩ := hs.exists_choose i
  obtain ⟨events, hevents⟩ := exists_mapM_eq_ok_iff.2 fun draw (_ : draw ∈ draws) =>
    exists_trade hv htradable account symbol side draw now
  exact ⟨events, bind_eq_ok_iff.2 ⟨account, haccount,
    bind_eq_ok_iff.2 ⟨side, mapError_eq_ok_iff.2 hside, bind_eq_ok_iff.2 ⟨events, hevents, rfl⟩⟩⟩⟩

end Tradable

/-- **Trades and bursts** are made, and keep the records sound. -/
theorem Sound.exists_step_of_isTrade (hs : s.Sound) (hact : act.isTrade = true) :
    ∃ s', s.step printable act = .ok s' ∧ s'.Sound := by
  cases act with
  | poll symbol body now => cases hact
  | trade symbol nudge buys i draw now =>
    cases hbase : s.tracker.latest symbol with
    | none => exact ⟨s, by simp only [step, hbase]; rfl, hs⟩
    | some base =>
      obtain ⟨price, v, hprice, hv, htradable⟩ :=
        (hs.marketable_of_latest hbase).exists_priceAt nudge
      obtain ⟨event, hnext⟩ := hs.exists_nextTrade hv htradable symbol buys i draw now
      simp only [step, hbase]
      exact ⟨_, bind_eq_ok_iff.2 ⟨price, mapError_eq_ok_iff.2 hprice,
        bind_eq_ok_iff.2 ⟨_, hnext, rfl⟩⟩, hs.record hv symbol⟩
  | burst symbol nudge buys i draws now =>
    cases hbase : s.tracker.latest symbol with
    | none => exact ⟨s, by simp only [step, hbase]; rfl, hs⟩
    | some base =>
      obtain ⟨price, v, hprice, hv, htradable⟩ :=
        (hs.marketable_of_latest hbase).exists_priceAt nudge
      obtain ⟨events, hburst⟩ := hs.exists_burst hv htradable symbol buys i draws now
      simp only [step, hbase]
      exact ⟨_, bind_eq_ok_iff.2 ⟨price, mapError_eq_ok_iff.2 hprice,
        bind_eq_ok_iff.2 ⟨_, hburst, rfl⟩⟩, hs.record hv symbol⟩

/-! ### Any run -/

/-- **An admissible poll** returns. -/
theorem Sound.exists_step_of_poll (hs : s.Sound) (now : Aware) {body : Json}
    (h : ∀ price, parseSpotPrice printable body = some price → s.Admissible symbol price) :
    ∃ s', s.step printable (.poll symbol body now) = .ok s' ∧ s'.Sound := by
  cases hparse : parseSpotPrice printable body with
  | none => exact ⟨s, by simp only [step, hparse]; rfl, hs⟩
  | some price =>
    obtain ⟨⟨tracker, events⟩, hobserve⟩ := hs.exists_observe (h price hparse) now
    simp only [step, hparse]
    exact ⟨_, bind_eq_ok_iff.2 ⟨_, mapError_eq_ok_iff.2 hobserve, rfl⟩,
      hs.observe (h price hparse) hobserve⟩

/-- **A run of admissible prices** returns, from any sound state. -/
theorem Sound.exists_run (hs : s.Sound) {acts : List Act} (h : s.AdmissibleRun printable acts) :
    ∃ s', s.run printable acts = .ok s' ∧ s'.Sound := by
  induction acts generalizing s with
  | nil => exact ⟨s, rfl, hs⟩
  | cons act acts ih =>
    obtain ⟨hact, hrest⟩ := h
    have hstep : ∃ s', s.step printable act = .ok s' ∧ s'.Sound := by
      cases act with
      | poll symbol body now => exact hs.exists_step_of_poll now (hact symbol body now rfl)
      | trade symbol nudge buys i draw now => exact hs.exists_step_of_isTrade rfl
      | burst symbol nudge buys i draws now => exact hs.exists_step_of_isTrade rfl
    obtain ⟨s₁, hs₁, hsound⟩ := hstep
    obtain ⟨s', hrun, hs'⟩ := ih hsound (hrest s₁ hs₁)
    exact ⟨s', bind_eq_ok_iff.2 ⟨s₁, hs₁, hrun⟩, hs'⟩

/-- The poll and every trade after it return. -/
def GoesOn (printable : CodePoint → Bool) (s : AppState) (symbol : PyStr) (body : Json)
    (now : Aware) : Prop :=
  ∃ s', s.step printable (.poll symbol body now) = .ok s' ∧
    ∀ act, act.isTrade = true → ∃ s'', s'.step printable act = .ok s''

/-- **A price that is not admissible** ends a loop, at once or at the next trade. -/
theorem Sound.goesOn_iff (hs : s.Sound) {body : Json} : GoesOn printable s symbol body now ↔
    ∀ price, parseSpotPrice printable body = some price → s.Admissible symbol price := by
  constructor
  · rintro ⟨s', hpoll, htrades⟩ price hparse
    simp only [step, hparse] at hpoll
    obtain ⟨⟨tracker, events⟩, hobserve, hpoll⟩ := bind_eq_ok_iff.1 hpoll
    replace hobserve := mapError_eq_ok_iff.1 hobserve
    obtain rfl := pure_eq_ok_iff.1 hpoll
    have hlatest : tracker.latest symbol = some price := by
      obtain ⟨anchor, rfl, -⟩ := exists_state_of_observe hobserve
      rw [PriceTracker.latest, PriceTracker.states_set_self]
      rfl
    have hmarketable : Marketable price := by
      refine marketable_of_trades fun nudge => ?_
      obtain ⟨s'', htrade⟩ := htrades (.trade symbol nudge true 0 .greatest now) rfl
      simp only [step, hlatest] at htrade
      obtain ⟨x, hx, htrade⟩ := bind_eq_ok_iff.1 htrade
      obtain ⟨⟨trades, event⟩, hnext, -⟩ := bind_eq_ok_iff.1 htrade
      obtain ⟨side, -, hnext⟩ := bind_eq_ok_iff.1 hnext
      obtain ⟨account, -, hnext⟩ := bind_eq_ok_iff.1 hnext
      obtain ⟨event', hevent, -⟩ := bind_eq_ok_iff.1 hnext
      exact ⟨x, mapError_eq_ok_iff.1 hx, account, symbol, side, now, event', hevent⟩
    refine ⟨hmarketable, fun state hstate v l a hv hl ha => ?_⟩
    obtain ⟨tick, htick, ⟨hnone, -, -⟩ | ⟨state', crossed, hstate', hmove⟩⟩ := of_observe hobserve
    · rw [hnone] at hstate
      cases hstate
    · obtain rfl : state' = state := Option.some.inj (hstate'.symm.trans hstate)
      obtain ⟨pct, hpct, -⟩ := bind_eq_ok_iff.1 hmove.of_crosses
      rw [PriceTracker.latest, hstate] at htick
      obtain ⟨⟨change, pct'⟩, hchange, -⟩ := bind_eq_ok_iff.1 htick
      obtain ⟨change', hsub, hchange⟩ := bind_eq_ok_iff.1 hchange
      obtain ⟨pct'', hpct', -⟩ := bind_eq_ok_iff.1 hchange
      exact ⟨(of_eq_ofRat (sub_eq_ofRat hv hl) hsub).1, pctFits_of_pctChange hl hv hpct',
        pctFits_of_pctChange ha hv hpct⟩
  · intro h
    obtain ⟨s', hpoll, hs'⟩ := hs.exists_step_of_poll now h
    exact ⟨s', hpoll, fun act hact => (hs'.exists_step_of_isTrade hact).imp fun _ h => h.1⟩

/-- The body of a price. -/
def spotBody (amount : String) : Json :=
  .obj [(ofString "data", .obj [(ofString "amount", .str (ofString amount))])]

end AppState

end Hookit.Producer
