import Hookit.Foundations.Decimal
import Hookit.Foundations.Json

/-!
# PostgreSQL's `jsonb`

* `jsonb x` is what a `jsonb` column gives back for the document `x`: numbers are decimals there,
  so a large `float` comes back as an integer and a zero has no sign. It is `none` where the column
  refuses the document: `NaN`, `Infinity`, a U+0000 or a lone surrogate.
* `jsonText x` is the text that the operator `->>` returns for a value, `none` for `NULL`.

`toStr_of_jsonText`: where this text is a plain numeral, Python writes the value in the same way,
unless it is a `float` that is too small for a cent. The order of the keys of an object, which the
column changes, is left as it is; the text of an object or an array is a parameter.
-/

namespace Foundations

open PyStr PyDecimal

namespace JsonFloat

/-- `0.0`. -/
def zero : JsonFloat := ⟨false, 0, 0, .inl ⟨rfl, rfl⟩⟩

/-- The number of digits and the size are those of a double. -/
def isDouble (x : JsonFloat) : Bool :=
  (digitsOf x.coefficient).length ≤ 17 ∧ -324 ≤ x.point ∧ x.point ≤ 309

/-- The text of the number as a decimal. -/
def numericText (x : JsonFloat) : PyStr :=
  let body := if x.coefficient = 0 then ofString "0.0" else fixed (PyStr.ofNat x.coefficient) x.point
  if x.negative then char '-' :: body else body

end JsonFloat

namespace Json

/-- The integer, if it is short enough. -/
def ofInt? (n : ℤ) : Option Json :=
  if h : (digitsOf n.natAbs).length ≤ maxStrDigits then some (.int ⟨n, h⟩) else none

/-- A float through a `jsonb` column. -/
def jsonbFloat (x : JsonFloat) : Option Json :=
  if !x.isDouble then none
  else if x.coefficient = 0 then some (.float .zero)
  else if 16 < x.point then
    ofInt? ((if x.negative then -1 else 1) * x.coefficient * 10 ^ x.exponent.toNat)
  else some (.float x)

mutual

/-- What a `jsonb` column gives back. -/
def jsonb : Json → Option Json
  | null => some null
  | bool b => some (bool b)
  | int n => some (int n)
  | float x => jsonbFloat x
  | infinity _ => none
  | nan => none
  | str s => if storable s then some (str s) else none
  | arr items => (jsonbItems items).map arr
  | obj items => (jsonbFields items).map obj

def jsonbItems : List Json → Option (List Json)
  | [] => some []
  | x :: items => (jsonb x).bind fun x => (jsonbItems items).map (x :: ·)

def jsonbFields : List (PyStr × Json) → Option (List (PyStr × Json))
  | [] => some []
  | (k, x) :: items =>
    if storable k then (jsonb x).bind fun x => (jsonbFields items).map ((k, x) :: ·) else none

end

/-- A value that a `jsonb` column has given back. -/
def Stored (y : Json) : Prop := ∃ x, jsonb x = some y

/-- The items of a stored object are stored. -/
theorem stored_of_mem : ∀ {items stored : List (PyStr × Json)} {k : PyStr} {y : Json},
    jsonbFields items = some stored → (k, y) ∈ stored → Stored y
  | [], stored, k, y, h, hy => by
    obtain rfl := Option.some.inj h
    cases hy
  | (k', x) :: items, stored, k, y, h, hy => by
    rw [jsonbFields] at h
    split at h
    · obtain ⟨y', hy', hrest⟩ := Option.bind_eq_some_iff.1 h
      obtain ⟨rest, htail, rfl⟩ := Option.map_eq_some_iff.1 hrest
      rcases List.mem_cons.1 hy with heq | hy
      · obtain ⟨rfl, rfl⟩ := Prod.mk.inj heq
        exact ⟨x, hy'⟩
      · exact stored_of_mem htail hy
    · cases h

theorem mem_of_get {items : List (PyStr × Json)} {k : PyStr} {y : Json} (h : get items k = some y) :
    (k, y) ∈ items := by
  induction items with
  | nil => cases h
  | cons item items ih =>
    obtain ⟨k', x⟩ := item
    rw [get, List.lookup_cons] at h
    split at h
    · next hk =>
      obtain rfl := Option.some.inj h
      rw [eq_of_beq hk]
      exact List.mem_cons_self
    · exact List.mem_cons_of_mem _ (ih h)

theorem ofInt?_eq_some {n : ℤ} {y : Json} (h : ofInt? n = some y) : ∃ n, y = int n := by
  rw [ofInt?] at h
  split at h
  · exact ⟨_, (Option.some.inj h).symm⟩
  · cases h

/-- What a float is given back as. -/
theorem jsonbFloat_cases {x : JsonFloat} {y : Json} (h : jsonbFloat x = some y) :
    y = float .zero ∨ (y = float x ∧ x.point ≤ 16) ∨ ∃ n, y = int n := by
  rw [jsonbFloat] at h
  split at h
  · cases h
  split at h
  · exact .inl (Option.some.inj h).symm
  split at h
  · exact .inr (.inr (ofInt?_eq_some h))
  · next hpoint => exact .inr (.inl ⟨(Option.some.inj h).symm, not_lt.1 hpoint⟩)

/-- What a value is given back as. -/
theorem stored_cases {y : Json} (h : Stored y) : (∃ s, y = str s ∧ storable s = true) ∨
    (∃ x, y = float x ∧ (x = .zero ∨ x.point ≤ 16)) ∨ ∀ s x, y ≠ str s ∧ y ≠ float x := by
  obtain ⟨x, hx⟩ := h
  cases x with
  | null => exact .inr (.inr (by obtain rfl := Option.some.inj hx; simp))
  | bool b => exact .inr (.inr (by obtain rfl := Option.some.inj hx; simp))
  | int n => exact .inr (.inr (by obtain rfl := Option.some.inj hx; simp))
  | float x =>
    rw [jsonb] at hx
    rcases jsonbFloat_cases hx with rfl | ⟨rfl, hpoint⟩ | ⟨n, rfl⟩
    · exact .inr (.inl ⟨_, rfl, .inl rfl⟩)
    · exact .inr (.inl ⟨x, rfl, .inr hpoint⟩)
    · exact .inr (.inr (by simp))
  | infinity negative => cases hx
  | nan => cases hx
  | str s =>
    rw [jsonb] at hx
    split at hx
    · next hs => exact .inl ⟨s, (Option.some.inj hx).symm, hs⟩
    · cases hx
  | arr items =>
    rw [jsonb] at hx
    obtain ⟨_, -, rfl⟩ := Option.map_eq_some_iff.1 hx
    exact .inr (.inr (by simp))
  | obj items =>
    rw [jsonb] at hx
    obtain ⟨_, -, rfl⟩ := Option.map_eq_some_iff.1 hx
    exact .inr (.inr (by simp))

/-- An object that a `jsonb` column holds. -/
abbrev StoredObject := {items : List (PyStr × Json) // ∃ raw, jsonbFields raw = some items}

/-- Store an object in a `jsonb` column. -/
def storeObject? (raw : List (PyStr × Json)) : Option StoredObject :=
  (jsonbFields raw).attach.map fun items => ⟨items.1, raw, items.2⟩

theorem StoredObject.stored_of_get (p : StoredObject) {k : PyStr} {y : Json}
    (h : get p.1 k = some y) : Stored y := by
  obtain ⟨_, raw, hraw⟩ := p
  exact stored_of_mem hraw (mem_of_get h)

theorem storable_of_stored {s : PyStr} (h : Stored (str s)) : storable s = true := by
  rcases stored_cases h with ⟨s', hs, hstorable⟩ | ⟨x, hx, -⟩ | hne
  · exact Json.str.inj hs ▸ hstorable
  · cases hx
  · exact absurd rfl (hne s .zero).1

/-- Python writes a stored value in characters that can be stored. -/
theorem storable_toStr {printable : CodePoint → Bool}
    (hprintable : ∀ c, printable c = true → storableChar c = true) {y : Json} (h : Stored y) :
    storable (toStr printable y) = true := by
  cases y with
  | str s => exact storable_of_stored h
  | _ => exact storable_repr hprintable _

/-! ## Text -/

section Text

variable (composite : Json → PyStr)

/-- The operator `->>`. -/
def jsonText : Json → Option PyStr
  | null => none
  | bool b => some (if b then ofString "true" else ofString "false")
  | int n => some (ofInt n.val)
  | float x => some x.numericText
  | infinity _ => none
  | nan => none
  | str s => some s
  | arr items => some (composite (arr items))
  | obj items => some (composite (obj items))

/-- A float that is no smaller than a tenth of a cent, as decimal and as Python writes it. -/
theorem numericText_eq_repr {x : JsonFloat} (h : x.coefficient = 0 ∨ (-4 < x.point ∧ x.point ≤ 16)) :
    x.numericText = x.repr := by
  rw [JsonFloat.numericText, JsonFloat.repr]
  rcases h with h | h
  · simp only [if_pos h]
  · simp only [if_pos h]

/-- The decimal of a float that is smaller than that. -/
theorem numericText_small {x : JsonFloat} (hne : x.coefficient ≠ 0) (hpoint : x.point ≤ 0)
    (hsign : x.negative = false) : x.numericText =
      numeral [0] (List.replicate (-x.point).toNat 0 ++ digitsOf x.coefficient) := by
  have hdigits : List.replicate (-x.point).toNat 0 ++ digitsOf x.coefficient ≠ [] := by
    simp [digitsOf_ne_nil]
  have hzero : ofString "0." = [digit 0, char '.'] := rfl
  rw [JsonFloat.numericText, if_neg hne, hsign, JsonFloat.fixed, if_pos hpoint, numeral,
    if_neg hdigits, hzero]
  simp [PyStr.ofNat]

theorem digitsValue_cons_zero (digits : List ℕ) :
    digitsValue 10 (0 :: digits) = digitsValue 10 digits := rfl

theorem digitsValue_replicate_zero (k : ℕ) (digits : List ℕ) :
    digitsValue 10 (List.replicate k 0 ++ digits) = digitsValue 10 digits := by
  induction k with
  | zero => rfl
  | succ k ih => rw [List.replicate_succ, List.cons_append, digitsValue_cons_zero, ih]

/-- It is no whole number of cents. -/
theorem numericText_ne_cents {x : JsonFloat} (hne : x.coefficient ≠ 0) (hpoint : x.point ≤ -4)
    {whole fraction : List ℕ} (h : plainNumeral? x.numericText = some (whole, fraction)) (m : ℕ) :
    numeralValue whole fraction * 100 ≠ m := by
  have hsign : x.negative = false := by
    by_contra hneg
    rw [Bool.not_eq_false] at hneg
    have htake : takeDigits x.numericText = ([], x.numericText) := by
      have hminus : isDigit (char '-') = false := by decide
      have hnil : ∀ d ∈ ([] : List ℕ), d < 10 := by simp
      have := takeDigits_map hnil x.numericText (by
        rw [JsonFloat.numericText, hneg, if_pos rfl]
        simpa using hminus)
      simpa using this
    rw [plainNumeral?, htake] at h
    simp at h
  rw [numericText_small hne (by omega) hsign, plainNumeral?_numeral (by simp) (by
    intro d hd
    rcases List.mem_append.1 hd with hd | hd
    · rw [List.eq_of_mem_replicate hd]
      norm_num
    · exact lt_ten_of_mem_digitsOf hd) (by simp)] at h
  obtain ⟨rfl, rfl⟩ := Prod.mk.inj (Option.some.inj h)
  generalize hk : (-x.point).toNat = k
  have hpos : 0 < x.coefficient := Nat.pos_of_ne_zero hne
  have hlt := lt_pow_length_digitsOf x.coefficient
  have hk4 : 4 ≤ k := by omega
  rw [numeralValue, List.singleton_append, digitsValue_cons_zero, digitsValue_replicate_zero,
    digitsValue_digitsOf, List.length_append, List.length_replicate, div_mul_eq_mul_div, pow_add]
  intro heq
  have hden : (0 : ℚ) < 10 ^ k * 10 ^ (digitsOf x.coefficient).length := by positivity
  rw [div_eq_iff hden.ne'] at heq
  have heq' : x.coefficient * 100 = m * (10 ^ k * 10 ^ (digitsOf x.coefficient).length) := by
    exact_mod_cast heq
  have hm : 1 ≤ m := by
    by_contra hm
    obtain rfl : m = 0 := by omega
    omega
  have hkpow : 10 ^ 4 ≤ 10 ^ k := Nat.pow_le_pow_right (by norm_num) hk4
  have hbig : 10 ^ 4 * 10 ^ (digitsOf x.coefficient).length ≤
      m * (10 ^ k * 10 ^ (digitsOf x.coefficient).length) := by
    calc 10 ^ 4 * 10 ^ (digitsOf x.coefficient).length
        ≤ 10 ^ k * 10 ^ (digitsOf x.coefficient).length := Nat.mul_le_mul_right _ hkpow
      _ ≤ _ := Nat.le_mul_of_pos_left _ hm
  omega

/-- **Where the text of a stored value is a plain numeral** of a whole number of cents, Python
writes the value in the same way. -/
theorem toStr_of_jsonText {printable : CodePoint → Bool} {y : Json} (hy : Stored y) {t : PyStr}
    (ht : jsonText composite y = some t) {whole fraction : List ℕ}
    (hcomposite : ∀ x, plainNumeral? (composite x) = none)
    (h : plainNumeral? t = some (whole, fraction)) {m : ℕ}
    (hm : numeralValue whole fraction * 100 = m) : toStr printable y = t := by
  have hbool : ∀ b : Bool, plainNumeral? (if b then ofString "true" else ofString "false") = none := by
    decide
  cases y with
  | null => cases ht
  | bool b =>
    obtain rfl := Option.some.inj ht
    rw [hbool] at h
    cases h
  | int n => exact Option.some.inj ht
  | float x =>
    obtain rfl := Option.some.inj ht
    by_cases hne : x.coefficient = 0
    · exact (numericText_eq_repr (.inl hne)).symm
    · have hpoint : x.point ≤ 16 := by
        rcases stored_cases hy with ⟨s, hs, -⟩ | ⟨x', hx', hzero | hpoint⟩ | hother
        · cases hs
        · exact absurd (congrArg JsonFloat.coefficient (Json.float.inj hx' |>.trans hzero)) hne
        · exact Json.float.inj hx' ▸ hpoint
        · exact absurd rfl (hother [] x).2
      rcases le_or_gt x.point (-4) with hsmall | hlarge
      · exact absurd hm (numericText_ne_cents hne hsmall h m)
      · exact (numericText_eq_repr (.inr ⟨hlarge, hpoint⟩)).symm
  | infinity negative => cases ht
  | nan => cases ht
  | str s => exact Option.some.inj ht
  | arr items =>
    obtain rfl := Option.some.inj ht
    rw [hcomposite] at h
    cases h
  | obj items =>
    obtain rfl := Option.some.inj ht
    rw [hcomposite] at h
    cases h

end Text

end Json

end Foundations
