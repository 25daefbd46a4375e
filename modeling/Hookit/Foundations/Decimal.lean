import Hookit.Foundations.Double
import Hookit.Foundations.Numeral

/-!
# Python's `decimal`

* `decimal? s` is `Decimal(s)`: whitespace around the number, underscores anywhere, digits of any
  script, an exponent, `Infinity` and `NaN`; `none` where it raises `InvalidOperation`.
* `quantizeCents x` is `x.quantize(Decimal("0.01"))` in the default context: half to even, and
  `none` where the result needs more than 28 digits.
* Sums and differences of amounts with two decimals are integers of hundredths, rounded to 28
  significant digits (`contextRound`).
* `decimal?_digits`: a plain decimal numeral is read as what it says.
-/

namespace Foundations

open PyStr

/-- A `Decimal`: `± coefficient * 10 ^ exponent`, or a special value. -/
inductive PyDecimal
  | finite (negative : Bool) (coefficient : ℕ) (exponent : ℤ)
  | infinity (negative : Bool)
  | nan (signalling : Bool)
  deriving DecidableEq

namespace PyDecimal

/-! ## Reading -/

/-- A character as `Decimal` takes it: ASCII, a blank or a digit. -/
def asciiChar? (c : CodePoint) : Option CodePoint :=
  if 0 < c.val ∧ c.val ≤ 127 then some c
  else if isSpace c then some (char ' ')
  else (decimalValue? c).map digit

def isDigit (c : CodePoint) : Bool := (asciiDigit? c).isSome

/-- Letters in lower case. -/
def lower (c : CodePoint) : CodePoint :=
  if 0x41 ≤ c.val ∧ c.val ≤ 0x5A then codePoint (c.val + 0x20) else c

/-- A sign, if there is one, and the rest. -/
def takeSign (s : PyStr) : Bool × PyStr :=
  match s with
  | [] => (false, [])
  | c :: rest =>
    if c = char '-' then (true, rest)
    else if c = char '+' then (false, rest)
    else (false, s)

/-- The digits that come first, and the rest. -/
def takeDigits (s : PyStr) : List ℕ × PyStr :=
  ((s.takeWhile isDigit).filterMap asciiDigit?, s.dropWhile isDigit)

/-- The digits after a decimal point, if there is one, and the rest. -/
def takeFraction (s : PyStr) : List ℕ × PyStr :=
  match s with
  | [] => ([], [])
  | c :: rest => if c = char '.' then takeDigits rest else ([], s)

/-- The exponent that the rest spells. -/
def exponent? (s : PyStr) : Option ℤ :=
  match s with
  | [] => some 0
  | c :: rest =>
    let (negative, body) := takeSign rest
    let (digits, left) := takeDigits body
    if lower c ≠ char 'e' ∨ digits = [] ∨ left ≠ [] then none
    else if negative then some (-(digitsValue 10 digits : ℤ))
    else some (digitsValue 10 digits)

/-- `MAX_EMAX`. -/
def maxEmax : ℤ := 999999999999999999

/-- `MIN_ETINY`. -/
def minEtiny : ℤ := -1999999999999999997

/-- A finite value within the limits of the library. -/
def finite? (negative : Bool) (coefficient : ℕ) (exponent : ℤ) : Option PyDecimal :=
  if minEtiny ≤ exponent ∧ exponent + (digitsOf coefficient).length - 1 ≤ maxEmax then
    some (.finite negative coefficient exponent)
  else none

/-- A number in digits. -/
def numeral? (negative : Bool) (s : PyStr) : Option PyDecimal :=
  let (whole, s) := takeDigits s
  let (fraction, s) := takeFraction s
  if whole ++ fraction = [] then none
  else (exponent? s).bind fun exponent =>
    finite? negative (digitsValue 10 (whole ++ fraction)) (exponent - fraction.length)

/-- A special value by its name. -/
def special? (negative : Bool) (s : PyStr) : Option PyDecimal :=
  let s := s.map lower
  if s = ofString "inf" ∨ s = ofString "infinity" then some (.infinity negative)
  else if s.take 3 = ofString "nan" ∧ (s.drop 3).all isDigit then some (.nan false)
  else if s.take 4 = ofString "snan" ∧ (s.drop 4).all isDigit then some (.nan true)
  else none

/-- `Decimal(s)`, `none` where it raises `InvalidOperation`. -/
def decimal? (s : PyStr) : Option PyDecimal := do
  let s ← ((strip s).filter (· ≠ char '_')).mapM asciiChar?
  let (negative, body) := takeSign s
  special? negative body <|> numeral? negative body

/-! ## Two decimals -/

/-- A `Decimal` with two decimals: a number of hundredths, of which even 0 has a sign. -/
inductive Quantized
  | nan
  | cents (negative : Bool) (magnitude : ℕ)
  deriving DecidableEq

/-- The digits that the default context has. -/
def precision : ℕ := 28

/-- `x.quantize(Decimal("0.01"))`, `none` where it raises `InvalidOperation`. -/
def quantizeCents : PyDecimal → Option Quantized
  | .finite negative coefficient exponent =>
    let magnitude := (roundEven (coefficient * 10 ^ (exponent + 2))).toNat
    if magnitude < 10 ^ precision then some (.cents negative magnitude) else none
  | .infinity _ => none
  | .nan signalling => if signalling then none else some .nan

/-- The number that a finite value stands for. -/
def value? : PyDecimal → Option ℚ
  | .finite negative coefficient exponent =>
    let magnitude : ℚ := coefficient * 10 ^ exponent
    some (if negative then -magnitude else magnitude)
  | .infinity _ => none
  | .nan _ => none

/-- `str(x)` of a value with two decimals. -/
def strCents (negative : Bool) (magnitude : ℕ) : PyStr :=
  let digits := PyStr.ofNat (magnitude / 100) ++
    char '.' :: (fixedDigits 10 2 magnitude).map digit
  if negative then char '-' :: digits else digits

/-- A result in hundredths, rounded to the precision of the context. -/
def contextRound (n : ℤ) : ℤ :=
  let excess := (digitsOf n.natAbs).length - precision
  roundEven ((n : ℚ) / 10 ^ excess) * 10 ^ excess

/-- **What is quantized to a number of cents that is not below 0.** -/
theorem exists_quantizeCents_iff {x : PyDecimal} {cents : ℕ} :
    (∃ negative, quantizeCents x = some (.cents negative cents) ∧ (negative = true → cents = 0)) ↔
      ∃ value, x.value? = some value ∧ roundEven (value * 100) = cents ∧ cents < 10 ^ precision := by
  cases x with
  | infinity negative => simp [quantizeCents, value?]
  | nan signalling => cases signalling <;> simp [quantizeCents, value?]
  | finite negative coefficient exponent =>
    have hshift : (coefficient : ℚ) * 10 ^ (exponent + 2) = coefficient * 10 ^ exponent * 100 := by
      rw [zpow_add₀ (by norm_num)]
      norm_num
      ring
    have hnonneg : 0 ≤ roundEven (coefficient * 10 ^ exponent * 100 : ℚ) := by
      refine le_roundEven ?_
      rw [Int.cast_zero]
      exact mul_nonneg (mul_nonneg (Nat.cast_nonneg _) (zpow_nonneg (by norm_num) _)) (by norm_num)
    simp only [quantizeCents, value?, hshift, Option.some.injEq, exists_eq_left']
    cases negative with
    | false =>
      rw [if_neg Bool.false_ne_true]
      generalize roundEven ((coefficient : ℚ) * 10 ^ exponent * 100) = n at hnonneg
      constructor
      · rintro ⟨negative, h, -⟩
        split at h
        · next hlt =>
          obtain ⟨-, rfl⟩ := Quantized.cents.inj (Option.some.inj h)
          exact ⟨(Int.toNat_of_nonneg hnonneg).symm, hlt⟩
        · cases h
      · rintro ⟨rfl, hlt⟩
        exact ⟨false, by rw [Int.toNat_natCast, if_pos hlt], by simp⟩
    | true =>
      rw [if_pos rfl, neg_mul, roundEven_neg]
      generalize roundEven ((coefficient : ℚ) * 10 ^ exponent * 100) = n at hnonneg
      constructor
      · rintro ⟨negative, h, hzero⟩
        split at h
        · next hlt =>
          obtain ⟨rfl, rfl⟩ := Quantized.cents.inj (Option.some.inj h)
          have := hzero rfl
          exact ⟨by omega, hlt⟩
        · cases h
      · rintro ⟨hneg, hlt⟩
        obtain rfl : n = 0 := by omega
        obtain rfl : cents = 0 := by omega
        exact ⟨true, by rw [Int.toNat_zero, if_pos hlt], fun _ => rfl⟩

theorem contextRound_eq_self {n : ℤ} (h : n.natAbs < 10 ^ precision) : contextRound n = n := by
  have hlen : (digitsOf n.natAbs).length - precision = 0 := by
    have := length_digitsOf_le (n := n.natAbs) (k := precision - 1) h
    unfold precision at this ⊢
    omega
  rw [contextRound, hlen]
  simp

/-- A result that needs more digits does not come within the precision by rounding. -/
theorem le_natAbs_contextRound {n : ℤ} (h : 10 ^ precision ≤ n.natAbs) :
    10 ^ precision ≤ (contextRound n).natAbs := by
  unfold contextRound
  dsimp only
  generalize hk : (digitsOf n.natAbs).length - precision = k
  have hlen : 29 ≤ (digitsOf n.natAbs).length := by
    by_contra hlt
    exact absurd (lt_pow_length_digitsOf n.natAbs) (not_lt.2
      ((Nat.pow_le_pow_right (by norm_num) (by unfold precision; omega)).trans h))
  have hsize : 10 ^ (27 + k) ≤ n.natAbs := by
    by_contra hlt
    have heq : 26 + k + 1 = 27 + k := by omega
    have := length_digitsOf_le (n := n.natAbs) (k := 26 + k) (heq ▸ not_le.1 hlt)
    unfold precision at hk
    omega
  have hsize' : (10 : ℤ) ^ (27 + k) ≤ n.natAbs := by exact_mod_cast hsize
  have hpow : (0 : ℚ) < 10 ^ k := by positivity
  have hround : (10 : ℤ) ^ 27 ≤ |roundEven ((n : ℚ) / 10 ^ k)| := by
    rcases le_or_gt 0 n with hn | hn
    · have hq : (((10 : ℤ) ^ 27 : ℤ) : ℚ) ≤ (n : ℚ) / 10 ^ k := by
        rw [le_div_iff₀ hpow]
        have : (10 : ℤ) ^ 27 * 10 ^ k ≤ n := by
          rw [← pow_add]
          omega
        exact_mod_cast this
      exact (le_roundEven hq).trans (le_abs_self _)
    · have hq : (n : ℚ) / 10 ^ k ≤ ((-(10 : ℤ) ^ 27 : ℤ) : ℚ) := by
        rw [div_le_iff₀ hpow]
        have : n ≤ -(10 : ℤ) ^ 27 * 10 ^ k := by
          rw [neg_mul, ← pow_add]
          omega
        exact_mod_cast this
      have := roundEven_le hq
      have hneg := neg_abs_le (roundEven ((n : ℚ) / 10 ^ k))
      omega
  have hk1 : 1 ≤ k := by
    unfold precision at hk
    omega
  rw [Int.natAbs_mul, precision]
  have hround' : 10 ^ 27 ≤ (roundEven ((n : ℚ) / 10 ^ k)).natAbs := by
    rw [← Int.natCast_natAbs] at hround
    exact_mod_cast hround
  have hpow' : 10 ≤ ((10 : ℤ) ^ k).natAbs := by
    rw [Int.natAbs_pow]
    exact le_self_pow₀ (by norm_num) (by omega)
  calc 10 ^ 28 = 10 ^ 27 * 10 := by norm_num
    _ ≤ _ := Nat.mul_le_mul hround' hpow'

/-! ## Plain numerals -/

/-- Digits, and after a decimal point more of them if there are any. -/
def numeral (whole fraction : List ℕ) : PyStr :=
  whole.map digit ++ if fraction = [] then [] else char '.' :: fraction.map digit

/-- What a numeral says. -/
def numeralValue (whole fraction : List ℕ) : ℚ :=
  digitsValue 10 (whole ++ fraction) / 10 ^ fraction.length

/-- The digits of a text that matches `^[0-9]+(\.[0-9]+)?$`. -/
def plainNumeral? (s : PyStr) : Option (List ℕ × List ℕ) :=
  let (whole, rest) := takeDigits s
  let (fraction, left) := takeFraction rest
  if whole = [] ∨ left ≠ [] ∨ (rest ≠ [] ∧ fraction = []) then none else some (whole, fraction)

/-- What comes first is digits. -/
theorem eq_of_takeDigits {s rest : PyStr} {digits : List ℕ} (h : takeDigits s = (digits, rest)) :
    s = digits.map digit ++ rest ∧ ∀ d ∈ digits, d < 10 := by
  obtain ⟨rfl, rfl⟩ := Prod.mk.inj h
  have hdigit : ∀ c ∈ s.takeWhile isDigit, ∃ d < 10, asciiDigit? c = some d ∧ digit d = c := by
    intro c hc
    have hc' : isDigit c = true := List.mem_takeWhile_imp hc
    obtain ⟨d, hd⟩ := Option.isSome_iff_exists.1 hc'
    have hd' := hd
    unfold asciiDigit? at hd'
    split_ifs at hd' with hrange
    obtain rfl := Option.some.inj hd'
    refine ⟨_, by omega, hd, ?_⟩
    ext
    rw [digit_val (by omega)]
    omega
  generalize hl : s.takeWhile isDigit = l at hdigit
  have hs : s = l ++ s.dropWhile isDigit := by rw [← hl, List.takeWhile_append_dropWhile]
  have hmap : ∀ {l : PyStr}, (∀ c ∈ l, ∃ d < 10, asciiDigit? c = some d ∧ digit d = c) →
      (l.filterMap asciiDigit?).map digit = l ∧ ∀ d ∈ l.filterMap asciiDigit?, d < 10 := by
    intro l hl
    induction l with
    | nil => simp
    | cons c l ih =>
      obtain ⟨d, hd, hc, hdc⟩ := hl c (by simp)
      obtain ⟨ih, ih'⟩ := ih fun c hc => hl c (by simp [hc])
      rw [List.filterMap_cons_some hc]
      exact ⟨by rw [List.map_cons, ih, hdc], List.forall_mem_cons.2 ⟨hd, ih'⟩⟩
  rw [(hmap hdigit).1]
  exact ⟨hs, (hmap hdigit).2⟩

/-- **The texts that match are the numerals.** -/
theorem plainNumeral?_eq_some {s : PyStr} {whole fraction : List ℕ}
    (h : plainNumeral? s = some (whole, fraction)) :
    s = numeral whole fraction ∧ whole ≠ [] ∧ (∀ d ∈ whole, d < 10) ∧ ∀ d ∈ fraction, d < 10 := by
  unfold plainNumeral? at h
  generalize hw : takeDigits s = w at h
  obtain ⟨w, rest⟩ := w
  dsimp only at h
  generalize hf : takeFraction rest = f at h
  obtain ⟨f, left⟩ := f
  dsimp only at h
  split_ifs at h with hcond
  obtain ⟨rfl, rfl⟩ := Prod.mk.inj (Option.some.inj h)
  rw [not_or, not_or, not_and_or, not_not, not_not] at hcond
  obtain ⟨hne, rfl, hrest⟩ := hcond
  obtain ⟨hs, hw10⟩ := eq_of_takeDigits hw
  cases rest with
  | nil =>
    obtain ⟨rfl, -⟩ := Prod.mk.inj hf
    exact ⟨by rw [hs, numeral, if_pos rfl], hne, hw10, by simp⟩
  | cons c rest =>
    replace hrest : f ≠ [] := by simpa using hrest
    simp only [takeFraction] at hf
    split_ifs at hf with hc
    · obtain ⟨hr, hf10⟩ := eq_of_takeDigits hf
      rw [List.append_nil] at hr
      exact ⟨by rw [hs, numeral, if_neg hrest, hc, hr], hne, hw10, hf10⟩
    · exact absurd (Prod.mk.inj hf).2 (by simp)

section Numeral

variable {whole fraction : List ℕ} (hwhole : ∀ d ∈ whole, d < 10) (hfraction : ∀ d ∈ fraction, d < 10)

theorem isDigit_digit {d : ℕ} (h : d < 10) : isDigit (digit d) = true := by
  rw [isDigit, asciiDigit?_digit h]
  rfl

/-- Digits are taken up to what is no digit. -/
theorem takeDigits_map {digits : List ℕ} (h : ∀ d ∈ digits, d < 10) (rest : PyStr)
    (hrest : ∀ c ∈ rest.head?, isDigit c = false) :
    takeDigits (digits.map digit ++ rest) = (digits, rest) := by
  have hall : ∀ c ∈ digits.map digit, isDigit c = true := by
    intro c hc
    obtain ⟨d, hd, rfl⟩ := List.mem_map.1 hc
    exact isDigit_digit (h d hd)
  have hvalues : (digits.map digit).filterMap asciiDigit? = digits := by
    rw [List.filterMap_map]
    conv_rhs => rw [← List.filterMap_some (l := digits)]
    exact List.filterMap_congr fun d hd => asciiDigit?_digit (h d hd)
  have hstop : rest.takeWhile isDigit = [] ∧ rest.dropWhile isDigit = rest := by
    cases rest with
    | nil => exact ⟨rfl, rfl⟩
    | cons c rest =>
      have hc : isDigit c = false := hrest c rfl
      exact ⟨List.takeWhile_cons_of_neg (by simp [hc]), List.dropWhile_cons_of_neg (by simp [hc])⟩
  rw [takeDigits, List.takeWhile_append_of_pos hall, List.dropWhile_append_of_pos hall, hstop.1,
    hstop.2, List.append_nil, hvalues]

include hwhole hfraction in
/-- The characters of a numeral. -/
theorem val_of_mem_numeral {c : CodePoint} (h : c ∈ numeral whole fraction) :
    0x2E ≤ c.val ∧ c.val ≤ 0x39 := by
  have hdigit : ∀ {l : List ℕ}, (∀ d ∈ l, d < 10) → c ∈ l.map digit → 0x2E ≤ c.val ∧ c.val ≤ 0x39 := by
    intro l hl hc
    obtain ⟨d, hd, rfl⟩ := List.mem_map.1 hc
    have := hl d hd
    rw [digit_val this]
    omega
  rw [numeral, List.mem_append] at h
  rcases h with h | h
  · exact hdigit hwhole h
  · split at h
    · cases h
    · rcases List.mem_cons.1 h with rfl | h
      · decide
      · exact hdigit hfraction h

include hwhole hfraction in
/-- **A plain numeral is read as what it says.** -/
theorem decimal?_numeral (hne : whole ≠ []) : decimal? (numeral whole fraction) =
    finite? false (digitsValue 10 (whole ++ fraction)) (-fraction.length) := by
  have hval := fun c hc => val_of_mem_numeral hwhole hfraction (c := c) hc
  have hstrip : strip (numeral whole fraction) = numeral whole fraction := by
    refine strip_eq_self fun c hc => ?_
    have := hval c hc
    simp only [isSpace, decide_eq_false_iff_not]
    omega
  have hfilter : (numeral whole fraction).filter (· ≠ char '_') = numeral whole fraction := by
    refine List.filter_eq_self.2 fun c hc => decide_eq_true ?_
    rintro rfl
    have := hval _ hc
    rw [char_val] at this
    exact absurd this.2 (by decide)
  have hmap : (numeral whole fraction).mapM asciiChar? = some (numeral whole fraction) := by
    have hsome : ∀ c ∈ numeral whole fraction, asciiChar? c = some c := fun c hc => by
      have := hval c hc
      exact if_pos ⟨by omega, by omega⟩
    have hall : ∀ {l : PyStr}, (∀ c ∈ l, asciiChar? c = some c) → l.mapM asciiChar? = some l := by
      intro l hl
      induction l with
      | nil => rfl
      | cons c l ih =>
        rw [List.mapM_cons, hl c (by simp), ih fun d hd => hl d (by simp [hd])]
        rfl
    exact hall hsome
  obtain ⟨d, rest, rfl⟩ := List.exists_cons_of_ne_nil hne
  have hd : d < 10 := hwhole d (by simp)
  obtain ⟨tail, htail⟩ : ∃ tail, numeral (d :: rest) fraction = digit d :: tail := ⟨_, rfl⟩
  have hcase : ∀ d < 10, digit d ≠ char '-' ∧ digit d ≠ char '+' ∧ lower (digit d) ≠ char 'i' ∧
      lower (digit d) ≠ char 'n' ∧ lower (digit d) ≠ char 's' := by decide
  obtain ⟨hminus, hplus, hi, hn, hs⟩ := hcase d hd
  have hsign : takeSign (numeral (d :: rest) fraction) = (false, numeral (d :: rest) fraction) := by
    rw [htail]
    simp only [takeSign, if_neg hminus, if_neg hplus]
  have hspecial : special? false (numeral (d :: rest) fraction) = none := by
    have hinf : ofString "inf" = char 'i' :: ofString "nf" := rfl
    have hinfinity : ofString "infinity" = char 'i' :: ofString "nfinity" := rfl
    have hnan : ofString "nan" = char 'n' :: ofString "an" := rfl
    have hsnan : ofString "snan" = char 's' :: ofString "nan" := rfl
    rw [htail]
    simp only [special?, List.map_cons, List.take_succ_cons, hinf, hinfinity, hnan, hsnan,
      List.cons.injEq, hi, hn, hs, false_and, or_self, if_false]
  have hdot : isDigit (char '.') = false := by decide
  have hnumeral : numeral? false (numeral (d :: rest) fraction) =
      finite? false (digitsValue 10 ((d :: rest) ++ fraction)) (0 - fraction.length) := by
    have hend : takeDigits (fraction.map digit) = (fraction, []) := by
      have := takeDigits_map hfraction [] (by simp)
      rwa [List.append_nil] at this
    have hwhole' : takeDigits (numeral (d :: rest) fraction) = (d :: rest,
        if fraction = [] then [] else char '.' :: fraction.map digit) := by
      refine takeDigits_map hwhole _ fun c hc => ?_
      split at hc
      · simp at hc
      · simp only [List.head?_cons, Option.mem_def, Option.some.injEq] at hc
        rw [← hc, hdot]
    have hfraction' : takeFraction (if fraction = [] then [] else char '.' :: fraction.map digit) =
        (fraction, []) := by
      split
      · next h => rw [h]; rfl
      · simp only [takeFraction, if_true, hend]
    simp only [numeral?, hwhole', hfraction', List.cons_append, reduceCtorEq, if_false, exponent?,
      Option.bind_some]
  simp only [decimal?, hstrip, hfilter, hmap, Option.bind_eq_bind, Option.bind_some, hsign, hspecial,
    hnumeral, zero_sub]
  rfl

include hwhole hfraction in
theorem plainNumeral?_numeral (hne : whole ≠ []) :
    plainNumeral? (numeral whole fraction) = some (whole, fraction) := by
  have hdot : isDigit (char '.') = false := by decide
  have hend : takeDigits (fraction.map digit) = (fraction, []) := by
    have := takeDigits_map hfraction [] (by simp)
    rwa [List.append_nil] at this
  by_cases hf : fraction = []
  · subst hf
    have hwhole' := takeDigits_map hwhole [] (by simp)
    rw [plainNumeral?, numeral, if_pos rfl, hwhole']
    simp [takeFraction, hne]
  · have hwhole' := takeDigits_map hwhole (char '.' :: fraction.map digit) (by simpa using hdot)
    rw [plainNumeral?, numeral, if_neg hf, hwhole']
    simp [takeFraction, hend, hne, hf]

include hwhole hfraction in
/-- **A numeral of a whole number of cents** is quantized to that number. -/
theorem decimal?_bind_quantizeCents (hne : whole ≠ []) {m : ℕ}
    (hm : numeralValue whole fraction * 100 = m) (hlt : m < 10 ^ precision)
    (hlen : fraction.length ≤ 10 ^ 18) :
    (decimal? (numeral whole fraction)).bind quantizeCents = some (.cents false m) := by
  generalize hc : digitsValue 10 (whole ++ fraction) = c
  have hpow : (0 : ℚ) < 10 ^ fraction.length := by positivity
  have hcm : c * 100 = m * 10 ^ fraction.length := by
    have : (c : ℚ) * 100 = m * 10 ^ fraction.length := by
      rw [← hm, numeralValue, hc]
      field_simp
    exact_mod_cast this
  have hdigits : (digitsOf c).length ≤ precision + fraction.length := by
    have hsize : c < 10 ^ (precision + fraction.length) := by
      rw [pow_add]
      have := Nat.mul_lt_mul_of_pos_right hlt (pow_pos (by norm_num : 0 < 10) fraction.length)
      omega
    have heq : precision + fraction.length - 1 + 1 = precision + fraction.length := by
      unfold precision
      omega
    have := length_digitsOf_le (n := c) (k := precision + fraction.length - 1) (heq ▸ hsize)
    omega
  have hround : roundEven ((c : ℚ) * 10 ^ (-(fraction.length : ℤ) + 2)) = m := by
    have : (c : ℚ) * 10 ^ (-(fraction.length : ℤ) + 2) = (m : ℤ) := by
      rw [zpow_add₀ (by norm_num), zpow_neg, zpow_natCast]
      have hcm' : (c : ℚ) * 100 = m * 10 ^ fraction.length := by exact_mod_cast hcm
      rw [← mul_assoc, mul_comm (c : ℚ), mul_assoc]
      norm_num
      rw [hcm']
      field_simp
    rw [this, roundEven_intCast]
  have hfinite : finite? false c (-fraction.length) = some (.finite false c (-fraction.length)) := by
    rw [finite?, if_pos]
    unfold minEtiny maxEmax
    unfold precision at hdigits
    constructor <;> omega
  rw [decimal?_numeral hwhole hfraction hne, hc, hfinite, Option.bind_some]
  simp only [quantizeCents, hround, Int.toNat_natCast, if_pos hlt]

end Numeral

end PyDecimal

end Foundations
