import Hookit.Foundations.Jsonb

/-!
# The spelling of a `float`

`repr` writes a float as a numeral, followed by a power of ten where the number is very large or
very small. Either way the text has the value of the float (`spells_fixed`, `spells_scientific`), and
no two floats in normal form have the same value: `repr_injective`.
-/

namespace Foundations

open PyStr PyDecimal Json

/-- A word is told from what follows it by the first character that no word has. -/
theorem append_inj_of_forall {α : Type*} {p : α → Prop} :
    ∀ {a b u v : List α}, (∀ c ∈ a, p c) → (∀ c ∈ b, p c) → (∀ c ∈ u.head?, ¬ p c) →
      (∀ c ∈ v.head?, ¬ p c) → a ++ u = b ++ v → a = b ∧ u = v
  | [], [], _, _, _, _, _, _, h => ⟨rfl, h⟩
  | [], c :: b, u, v, _, hb, hu, _, h => by
    obtain rfl : u = c :: (b ++ v) := h
    exact absurd (hb c List.mem_cons_self) (hu c rfl)
  | c :: a, [], u, v, ha, _, _, hv, h => by
    obtain rfl : c :: (a ++ u) = v := h
    exact absurd (ha c List.mem_cons_self) (hv c rfl)
  | c :: a, d :: b, u, v, ha, hb, hu, hv, h => by
    obtain ⟨rfl, htail⟩ := List.cons.inj h
    rw [List.forall_mem_cons] at ha hb
    obtain ⟨rfl, rfl⟩ := append_inj_of_forall ha.2 hb.2 hu hv htail
    exact ⟨rfl, rfl⟩

/-! ## Numerals and their values -/

theorem digitsValue_append_replicate (digits : List ℕ) (k : ℕ) :
    digitsValue 10 (digits ++ List.replicate k 0) = digitsValue 10 digits * 10 ^ k := by
  induction k with
  | zero => simp
  | succ k ih =>
    have hsnoc : ∀ l : List ℕ, digitsValue 10 (l ++ [0]) = 10 * digitsValue 10 l := by
      intro l
      simp [digitsValue]
    rw [List.replicate_succ', ← List.append_assoc, hsnoc, ih, pow_succ]
    ring

/-- The text is a numeral for the value. -/
def Spells (s : PyStr) (v : ℚ) : Prop :=
  ∃ whole fraction, s = numeral whole fraction ∧ whole ≠ [] ∧ (∀ d ∈ whole, d < 10) ∧
    (∀ d ∈ fraction, d < 10) ∧ numeralValue whole fraction = v

theorem Spells.unique {s : PyStr} {v w : ℚ} (h : Spells s v) (h' : Spells s w) : v = w := by
  obtain ⟨whole, fraction, rfl, hne, hwhole, hfraction, rfl⟩ := h
  obtain ⟨whole', fraction', hs, hne', hwhole', hfraction', rfl⟩ := h'
  have hread := plainNumeral?_numeral hwhole hfraction hne
  rw [hs, plainNumeral?_numeral hwhole' hfraction' hne'] at hread
  obtain ⟨rfl, rfl⟩ := Prod.mk.inj (Option.some.inj hread)
  rfl

theorem Spells.val_of_mem {s : PyStr} {v : ℚ} (h : Spells s v) {c : CodePoint} (hc : c ∈ s) :
    0x2E ≤ c.val ∧ c.val ≤ 0x39 := by
  obtain ⟨whole, fraction, rfl, -, hwhole, hfraction, -⟩ := h
  exact val_of_mem_numeral hwhole hfraction hc

/-- The power of ten behind a numeral. -/
def powerText (k : ℤ) : PyStr :=
  let size := PyStr.ofNat k.natAbs
  char 'e' :: (if k < 0 then char '-' else char '+') ::
    (if size.length < 2 then digit 0 :: size else size)

theorem powerText_injective : Function.Injective powerText := by
  intro k l h
  have hread : ∀ n : ℕ, ((if (PyStr.ofNat n).length < 2 then digit 0 :: PyStr.ofNat n
      else PyStr.ofNat n).mapM asciiDigit?).map (digitsValue 10) = some n := by
    intro n
    have hdigits : (PyStr.ofNat n).mapM asciiDigit? = some (digitsOf n) :=
      mapM_digits (fun d => asciiDigit?_digit) fun d => lt_ten_of_mem_digitsOf
    split_ifs
    · simp [hdigits, asciiDigit?_digit, digitsValue_cons_zero]
    · simp [hdigits]
  simp only [powerText, List.cons.injEq, true_and] at h
  obtain ⟨hsign, hsize⟩ := h
  have habs : k.natAbs = l.natAbs := by
    have hk := hread k.natAbs
    rw [hsize, hread l.natAbs] at hk
    exact (Option.some.inj hk).symm
  have hsigns : char '-' ≠ char '+' := by decide
  split_ifs at hsign with hk hl hl
  · omega
  · exact absurd hsign hsigns
  · exact absurd hsign hsigns.symm
  · omega

namespace JsonFloat

/-! ## The two forms -/

section Forms

variable {digits : List ℕ} (hne : digits ≠ []) (hlt : ∀ d ∈ digits, d < 10)

include hne hlt in
theorem spells_fixed (point : ℤ) : Spells (fixed (digits.map digit) point)
    (digitsValue 10 digits * 10 ^ (point - digits.length)) := by
  have hzero : ofString "0." = [digit 0, char '.'] := rfl
  have htail : ofString ".0" = [char '.', digit 0] := rfl
  have hzeros : ∀ k, ∀ d ∈ List.replicate k 0, d < 10 := by
    intro k d hd
    rw [List.eq_of_mem_replicate hd]
    norm_num
  unfold fixed
  split_ifs with hsmall hinside
  · -- `0.000ddd`
    have hpow : (10 : ℚ) ^ (point - digits.length) =
        (10 ^ ((-point).toNat + digits.length))⁻¹ := by
      rw [← zpow_natCast, ← zpow_neg]
      congr 1
      push_cast
      omega
    refine ⟨[0], List.replicate (-point).toNat 0 ++ digits, ?_, by simp, by simp,
      List.forall_mem_append.2 ⟨hzeros _, hlt⟩, ?_⟩
    · rw [numeral, if_neg (List.append_ne_nil_of_right_ne_nil _ hne), hzero]
      simp
    · rw [numeralValue, List.singleton_append, digitsValue_cons_zero, digitsValue_replicate_zero,
        List.length_append, List.length_replicate, hpow, div_eq_mul_inv]
  · -- `dd.ddd`
    rw [List.length_map] at hinside
    have hdrop : digits.drop point.toNat ≠ [] := by simp [hinside]
    have hpow : (10 : ℚ) ^ (point - digits.length) = (10 ^ (digits.length - point.toNat))⁻¹ := by
      rw [← zpow_natCast, ← zpow_neg]
      congr 1
      omega
    refine ⟨digits.take point.toNat, digits.drop point.toNat, ?_, ?_,
      fun d hd => hlt d (List.mem_of_mem_take hd), fun d hd => hlt d (List.mem_of_mem_drop hd), ?_⟩
    · rw [numeral, if_neg hdrop, List.map_take, List.map_drop]
    · simp [hne]
      omega
    · rw [numeralValue, List.take_append_drop, List.length_drop, hpow, div_eq_mul_inv]
  · -- `ddd000.0`
    rw [List.length_map] at hinside ⊢
    have hpow : (10 : ℚ) ^ (point - digits.length) = 10 ^ (point.toNat - digits.length) := by
      rw [← zpow_natCast]
      congr 1
      omega
    refine ⟨digits ++ List.replicate (point.toNat - digits.length) 0, [0], ?_, by simp [hne],
      List.forall_mem_append.2 ⟨hlt, hzeros _⟩, by simp, ?_⟩
    · rw [numeral, if_neg (by simp), htail]
      simp
    · have hsnoc : ([0] : List ℕ) = List.replicate 1 0 := rfl
      rw [numeralValue, hsnoc, digitsValue_append_replicate, digitsValue_append_replicate, hpow]
      simp

include hne hlt in
theorem exists_scientific (point : ℤ) : ∃ mantissa v, Spells mantissa v ∧
    scientific (digits.map digit) point = mantissa ++ powerText (point - 1) ∧
    v * 10 ^ (point - 1) = digitsValue 10 digits * 10 ^ (point - digits.length) := by
  have hpow : (10 : ℚ) ^ (point - 1) = 10 ^ (digits.length - 1) * 10 ^ (point - digits.length) := by
    have hpos := List.length_pos_iff.2 hne
    rw [← zpow_natCast, ← zpow_add₀ (by norm_num)]
    congr 1
    omega
  by_cases hlength : digits.length ≤ 1
  · have hone : digits.length = 1 := by
      have hpos := List.length_pos_iff.2 hne
      omega
    refine ⟨digits.map digit, digitsValue 10 digits,
      ⟨digits, [], by simp [numeral], hne, hlt, by simp, by simp [numeralValue]⟩, ?_, ?_⟩
    · simp [scientific, powerText, hlength]
    · rw [hone]
      rfl
  · have hdrop : digits.drop 1 ≠ [] := by
      simp only [ne_eq, List.drop_eq_nil_iff]
      omega
    refine ⟨numeral (digits.take 1) (digits.drop 1), _,
      ⟨_, _, rfl, by simp [hne], fun d hd => hlt d (List.mem_of_mem_take hd),
        fun d hd => hlt d (List.mem_of_mem_drop hd), rfl⟩, ?_, ?_⟩
    · rw [List.drop_one] at hdrop
      simp [scientific, powerText, hlength, numeral, hdrop]
    · rw [numeralValue, List.take_append_drop, List.length_drop, hpow, div_mul_eq_mul_div,
        ← mul_assoc, mul_right_comm, mul_div_assoc, div_self (by positivity), mul_one]

end Forms

/-! ## Different floats are spelled differently -/

/-- The text without the sign. -/
def body (x : JsonFloat) : PyStr :=
  if x.coefficient = 0 then ofString "0.0"
  else if -4 < x.point ∧ x.point ≤ 16 then fixed (PyStr.ofNat x.coefficient) x.point
  else scientific (PyStr.ofNat x.coefficient) x.point

theorem repr_eq (x : JsonFloat) : x.repr = if x.negative then char '-' :: x.body else x.body := rfl

/-- The absolute value of the float. -/
def magnitude (x : JsonFloat) : ℚ := x.coefficient * 10 ^ x.exponent

/-- **The text has the value of the float.** -/
theorem body_cases (x : JsonFloat) : Spells x.body x.magnitude ∨
    ∃ mantissa v k, Spells mantissa v ∧ x.body = mantissa ++ powerText k ∧
      v * 10 ^ k = x.magnitude := by
  have hdigits : (digitsValue 10 (digitsOf x.coefficient) : ℚ) *
      10 ^ (x.point - (digitsOf x.coefficient).length) = x.magnitude := by
    rw [digitsValue_digitsOf, point, add_sub_cancel_left, magnitude]
  have hne := digitsOf_ne_nil x.coefficient
  have hlt : ∀ d ∈ digitsOf x.coefficient, d < 10 := fun d => lt_ten_of_mem_digitsOf
  unfold body
  split_ifs with hzero hpoint
  · exact .inl ⟨[0], [0], rfl, by simp, by simp, by simp,
      by simp [numeralValue, magnitude, hzero, digitsValue]⟩
  · left
    rw [← hdigits]
    exact spells_fixed hne hlt x.point
  · right
    obtain ⟨mantissa, v, hspells, htext, hvalue⟩ := exists_scientific hne hlt x.point
    exact ⟨mantissa, v, _, hspells, htext, hvalue.trans hdigits⟩

theorem magnitude_eq_of_body {x y : JsonFloat} (h : x.body = y.body) :
    x.magnitude = y.magnitude := by
  have hpower : ∀ {s mantissa : PyStr} {v : ℚ} {k : ℤ}, Spells s v → s ≠ mantissa ++ powerText k := by
    rintro s mantissa v k hs rfl
    have hmem : char 'e' ∈ mantissa ++ powerText k :=
      List.mem_append_right _ List.mem_cons_self
    exact absurd (hs.val_of_mem hmem).2 (by decide)
  rcases body_cases x with hx | ⟨mantissa, v, k, hx, hbody, hvalue⟩ <;>
    rcases body_cases y with hy | ⟨mantissa', v', k', hy, hbody', hvalue'⟩
  · rw [h] at hx
    exact hx.unique hy
  · exact absurd (h.trans hbody') (hpower hx)
  · exact absurd (h.symm.trans hbody) (hpower hy)
  · have hstop : ∀ k, ∀ c ∈ (powerText k).head?, ¬ c.val ≤ 0x39 := by
      intro k c hc
      obtain rfl := Option.some.inj hc
      decide
    obtain ⟨rfl, hk⟩ := append_inj_of_forall (fun c hc => (hx.val_of_mem hc).2)
      (fun c hc => (hy.val_of_mem hc).2) (hstop k) (hstop k') (hbody.symm.trans (h.trans hbody'))
    rw [← hvalue, ← hvalue', hx.unique hy, powerText_injective hk]

/-- The normal form of the larger exponent. -/
theorem exponent_le {x y : JsonFloat} (h : x.magnitude = y.magnitude) (hx : x.coefficient ≠ 0) :
    y.exponent ≤ x.exponent := by
  by_contra! hlt
  obtain ⟨k, hk⟩ : ∃ k : ℕ, y.exponent = x.exponent + (k + 1) :=
    ⟨(y.exponent - x.exponent - 1).toNat, by omega⟩
  have hten : (10 : ℚ) ^ x.exponent ≠ 0 := zpow_ne_zero _ (by norm_num)
  have hcoefficient : (x.coefficient : ℚ) = y.coefficient * 10 ^ (k + 1) := by
    rw [magnitude, magnitude, hk, zpow_add₀ (by norm_num), mul_comm (10 ^ x.exponent), ← mul_assoc]
      at h
    exact_mod_cast mul_right_cancel₀ hten h
  have hnat : x.coefficient = y.coefficient * 10 ^ (k + 1) := by exact_mod_cast hcoefficient
  have hdvd : 10 ∣ x.coefficient := by
    rw [hnat, pow_succ, ← mul_assoc]
    exact dvd_mul_left _ _
  exact absurd hdvd (x.normal.resolve_left fun hzero => hx hzero.1)

/-- **The normal form is unique.** -/
theorem eq_of_magnitude {x y : JsonFloat} (hsign : x.negative = y.negative)
    (h : x.magnitude = y.magnitude) : x = y := by
  have hten : ∀ e : ℤ, (10 : ℚ) ^ e ≠ 0 := fun e => zpow_ne_zero e (by norm_num)
  have hzero : x.coefficient = 0 ↔ y.coefficient = 0 := by
    have hiff : ∀ z : JsonFloat, z.magnitude = 0 ↔ z.coefficient = 0 := by
      intro z
      simp [magnitude, hten]
    rw [← hiff x, ← hiff y, h]
  have hexponent : x.exponent = y.exponent := by
    by_cases hx : x.coefficient = 0
    · have hnormal : ∀ z : JsonFloat, z.coefficient = 0 → z.exponent = 0 := by
        intro z hz
        exact (z.normal.resolve_right fun hdvd => hdvd (hz ▸ dvd_zero 10)).2
      rw [hnormal x hx, hnormal y (hzero.1 hx)]
    · exact le_antisymm (exponent_le h.symm fun hy => hx (hzero.2 hy)) (exponent_le h hx)
  have hcoefficient : x.coefficient = y.coefficient := by
    rw [magnitude, magnitude, hexponent] at h
    exact_mod_cast mul_right_cancel₀ (hten _) h
  cases x
  cases y
  simp_all

theorem minus_ne_head_body (x : JsonFloat) (s : PyStr) : x.body ≠ char '-' :: s := by
  intro h
  have hminus : ¬ (0x2E ≤ (char '-').val) := by decide
  have hspells : ∀ {t : PyStr} {v : ℚ}, Spells t v → ∀ w, t ++ w ≠ char '-' :: s := by
    intro t v ht w heq
    cases t with
    | nil =>
      obtain ⟨whole, fraction, hnil, hne, -⟩ := ht
      cases whole with
      | nil => exact hne rfl
      | cons d whole => cases hnil
    | cons c t =>
      obtain ⟨rfl, -⟩ := List.cons.inj heq
      exact hminus (ht.val_of_mem List.mem_cons_self).1
  rcases body_cases x with hx | ⟨mantissa, v, k, hx, hbody, -⟩
  · exact hspells hx [] (by rw [List.append_nil, h])
  · exact hspells hx _ (hbody.symm.trans h)

/-- The text of a float has a decimal point or a power of ten, unlike that of an integer. -/
theorem mem_repr (x : JsonFloat) : char '.' ∈ x.repr ∨ char 'e' ∈ x.repr := by
  have hfixed : ∀ digits point, char '.' ∈ fixed digits point := by
    intro digits point
    have hzero : ofString "0." = [digit 0, char '.'] := rfl
    have htail : ofString ".0" = [char '.', digit 0] := rfl
    unfold fixed
    split_ifs <;> simp [hzero, htail]
  have hscientific : ∀ digits point, char 'e' ∈ scientific digits point := by
    intro digits point
    simp [scientific]
  have hbody : char '.' ∈ x.body ∨ char 'e' ∈ x.body := by
    unfold body
    split_ifs
    · exact .inl (by decide)
    · exact .inl (hfixed _ _)
    · exact .inr (hscientific _ _)
  rw [repr_eq]
  split_ifs
  · exact hbody.imp (List.mem_cons_of_mem _) (List.mem_cons_of_mem _)
  · exact hbody

/-- **Different floats are spelled differently.** -/
theorem repr_injective : Function.Injective JsonFloat.repr := by
  intro x y h
  rw [repr_eq, repr_eq] at h
  split_ifs at h with hx hy hy
  · exact eq_of_magnitude (hx.trans hy.symm) (magnitude_eq_of_body (List.cons.inj h).2)
  · exact absurd h.symm (minus_ne_head_body y _)
  · exact absurd h (minus_ne_head_body x _)
  · rw [Bool.not_eq_true] at hx hy
    exact eq_of_magnitude (hx.trans hy.symm) (magnitude_eq_of_body h)

end JsonFloat

end Foundations
