import Hookit.Foundations.Text
import Mathlib.Data.List.DropRight
import Mathlib.Data.Nat.Digits.Lemmas

/-!
# Python's integers in text

`str(n)`, `int(s)` and `int(s, 16)`, with the character classes they depend on.

* `strip` is `str.strip()`, `decimalValue?` is `unicodedata.decimal`.
* `ofInt n` is the decimal spelling of `n`, and `strInt n` is `str(n)`, which raises for more
  than 4300 digits.
* `int? s` is `int(s)`: whitespace around an optional sign and digits of any script, with single
  underscores between digits. Its only exception is `ValueError`, here `none`. `intHex? s` is
  `int(s, 16)`.
* `fixedDigits b k n` are the last `k` digits of `n` in base `b`.
* `int?_ofInt`: `int` reads back what `str` writes.
-/

namespace Foundations

/-! ## Digits -/

/-- The decimal digits of a number, the most significant first. -/
def digitsOf (n : ℕ) : List ℕ := if n = 0 then [0] else (Nat.digits 10 n).reverse

/-- The number with the given digits in base `b`. -/
def digitsValue (b : ℕ) (digits : List ℕ) : ℕ := digits.foldl (fun n d => d + b * n) 0

/-- The last `k` digits of `n` in base `b`, the most significant first. -/
def fixedDigits (b : ℕ) : ℕ → ℕ → List ℕ
  | 0, _ => []
  | k + 1, n => fixedDigits b k (n / b) ++ [n % b]

@[simp] theorem length_fixedDigits (b k n : ℕ) : (fixedDigits b k n).length = k := by
  induction k generalizing n with
  | zero => rfl
  | succ k ih => simp [fixedDigits, ih]

theorem lt_of_mem_fixedDigits {b k n d : ℕ} (hb : 0 < b) (h : d ∈ fixedDigits b k n) : d < b := by
  induction k generalizing n with
  | zero => simp [fixedDigits] at h
  | succ k ih =>
    rcases List.mem_append.1 h with h | h
    · exact ih h
    · rw [List.mem_singleton.1 h]
      exact Nat.mod_lt _ hb

/-- **The fixed digits spell the number up to their range.** -/
theorem digitsValue_fixedDigits (b k n : ℕ) : digitsValue b (fixedDigits b k n) = n % b ^ k := by
  induction k generalizing n with
  | zero => simp [fixedDigits, digitsValue, Nat.mod_one]
  | succ k ih =>
    have hstep : digitsValue b (fixedDigits b (k + 1) n) =
        n % b + b * digitsValue b (fixedDigits b k (n / b)) := by
      simp [digitsValue, fixedDigits]
    rw [hstep, ih, pow_succ', Nat.mod_mul]

@[simp] theorem digitsValue_digitsOf (n : ℕ) : digitsValue 10 (digitsOf n) = n := by
  unfold digitsValue digitsOf
  split_ifs with h
  · simp [h]
  · have hfold := Nat.ofDigits_eq_foldr 10 (Nat.digits 10 n)
    rw [Nat.ofDigits_digits] at hfold
    rw [List.foldl_reverse]
    exact hfold.symm

theorem digitsOf_ne_nil (n : ℕ) : digitsOf n ≠ [] := by
  unfold digitsOf
  split_ifs with h
  · simp
  · simpa [Nat.digits_eq_nil_iff_eq_zero] using h

theorem lt_ten_of_mem_digitsOf {n d : ℕ} (h : d ∈ digitsOf n) : d < 10 := by
  unfold digitsOf at h
  split_ifs at h
  · simp_all
  · exact Nat.digits_lt_base (by norm_num) (List.mem_reverse.1 h)

theorem digitsOf_injective : Function.Injective digitsOf :=
  Function.LeftInverse.injective digitsValue_digitsOf

namespace PyStr

/-! ## Characters -/

/-- The code point of an ASCII digit. -/
def digit (d : ℕ) : CodePoint := codePoint (0x30 + d)

/-- The code point of a lowercase hexadecimal digit. -/
def hexDigit (d : ℕ) : CodePoint := codePoint (if d < 10 then 0x30 + d else 0x57 + d)

/-- The first code points of the blocks of decimal digits (general category `Nd`). -/
def digitBlocks : List ℕ :=
  [0x30, 0x660, 0x6F0, 0x7C0, 0x966, 0x9E6, 0xA66, 0xAE6, 0xB66, 0xBE6, 0xC66, 0xCE6, 0xD66,
    0xDE6, 0xE50, 0xED0, 0xF20, 0x1040, 0x1090, 0x17E0, 0x1810, 0x1946, 0x19D0, 0x1A80, 0x1A90,
    0x1B50, 0x1BB0, 0x1C40, 0x1C50, 0xA620, 0xA8D0, 0xA900, 0xA9D0, 0xA9F0, 0xAA50, 0xABF0,
    0xFF10, 0x104A0, 0x10D30, 0x11066, 0x110F0, 0x11136, 0x111D0, 0x112F0, 0x11450, 0x114D0,
    0x11650, 0x116C0, 0x11730, 0x118E0, 0x11950, 0x11C50, 0x11D50, 0x11DA0, 0x11F50, 0x16A60,
    0x16AC0, 0x16B50, 0x1D7CE, 0x1D7D8, 0x1D7E2, 0x1D7EC, 0x1D7F6, 0x1E140, 0x1E2F0, 0x1E4F0,
    0x1E950, 0x1FBF0]

/-- `unicodedata.decimal`. -/
def decimalValue? (c : CodePoint) : Option ℕ :=
  (digitBlocks.find? fun b => b ≤ c.val ∧ c.val < b + 10).map (c.val - ·)

/-- `str.isspace`. -/
def isSpace (c : CodePoint) : Bool :=
  (9 ≤ c.val ∧ c.val ≤ 13) ∨ (28 ≤ c.val ∧ c.val ≤ 32) ∨ c.val = 0x85 ∨ c.val = 0xA0 ∨
    c.val = 0x1680 ∨ (0x2000 ≤ c.val ∧ c.val ≤ 0x200A) ∨ c.val = 0x2028 ∨ c.val = 0x2029 ∨
    c.val = 0x202F ∨ c.val = 0x205F ∨ c.val = 0x3000

/-- `str.strip()`. -/
def strip (s : PyStr) : PyStr := (s.dropWhile isSpace).rdropWhile isSpace

/-- The code point of a character of a literal. -/
def char (c : Char) : CodePoint := codePoint c.toNat

theorem digit_val {d : ℕ} (h : d < 10) : (digit d).val = 0x30 + d :=
  Nat.mod_eq_of_lt (by omega)

theorem hexDigit_val {d : ℕ} (h : d < 16) :
    (hexDigit d).val = if d < 10 then 0x30 + d else 0x57 + d :=
  Nat.mod_eq_of_lt (by split_ifs <;> omega)

theorem char_val (c : Char) : (char c).val = c.toNat := by
  refine Nat.mod_eq_of_lt ?_
  have := c.valid
  rcases this with h | h
  · have : c.toNat < 0xD800 := h
    omega
  · exact h.2

/-- Literals are told apart by their code points. -/
theorem ofString_injective : Function.Injective ofString := by
  intro s t h
  have hchar : Function.Injective fun c : Char => (Fin.ofNat 0x110000 c.toNat) := by
    intro c d hcd
    have hval : (char c).val = (char d).val := congrArg Fin.val hcd
    rw [char_val, char_val] at hval
    exact Char.toNat_inj.1 hval
  exact String.ext (List.map_injective_iff.2 hchar h)

theorem dropWhile_eq_self {p : CodePoint → Bool} {s : PyStr} (h : ∀ c ∈ s, p c = false) :
    s.dropWhile p = s := by
  cases s with
  | nil => rfl
  | cons c s => simp [h c List.mem_cons_self]

/-- A string without whitespace is left alone. -/
theorem strip_eq_self {s : PyStr} (h : ∀ c ∈ s, isSpace c = false) : strip s = s := by
  rw [strip, dropWhile_eq_self h, List.rdropWhile_eq_self_iff]
  intro hs
  simp [h _ (List.getLast_mem hs)]

/-! ## Integers -/

/-- The decimal spelling of a number. -/
def ofNat (n : ℕ) : PyStr := (digitsOf n).map digit

/-- The decimal spelling of an integer. -/
def ofInt (n : ℤ) : PyStr := if n < 0 then char '-' :: ofNat n.natAbs else ofNat n.natAbs

/-- `sys.get_int_max_str_digits()`. -/
def maxStrDigits : ℕ := 4300

/-- `str(n)`, `none` where it raises `ValueError`. -/
def strInt (n : ℤ) : Option PyStr :=
  if (digitsOf n.natAbs).length ≤ maxStrDigits then some (ofInt n) else none

/-- The whitespace that C's `isspace` knows. -/
def isCSpace (c : CodePoint) : Bool := c.val = 0x20 ∨ (9 ≤ c.val ∧ c.val ≤ 13)

/-- Write digits of other scripts and other whitespace in ASCII, as `int` does first. -/
def toAsciiChar (c : CodePoint) : CodePoint :=
  if c.val < 127 then c
  else if isSpace c then char ' '
  else
    match decimalValue? c with
    | some d => digit d
    | none => char '?'

/-- Trim a string as `int` does. -/
def trim (s : PyStr) : PyStr := ((s.map toAsciiChar).dropWhile isCSpace).rdropWhile isCSpace

/-- The value of an ASCII digit. -/
def asciiDigit? (c : CodePoint) : Option ℕ :=
  if 0x30 ≤ c.val ∧ c.val ≤ 0x39 then some (c.val - 0x30) else none

/-- The value of a hexadecimal digit. -/
def hexDigit? (c : CodePoint) : Option ℕ :=
  if 0x30 ≤ c.val ∧ c.val ≤ 0x39 then some (c.val - 0x30)
  else if 0x41 ≤ c.val ∧ c.val ≤ 0x46 then some (c.val - 0x37)
  else if 0x61 ≤ c.val ∧ c.val ≤ 0x66 then some (c.val - 0x57)
  else none

/-- Digits, possibly with single underscores between them. -/
def digitGroups? (digit? : CodePoint → Option ℕ) (s : PyStr) : Option (List ℕ) :=
  ((s.splitOn (char '_')).mapM fun group =>
    if group = [] then none else group.mapM digit?).map List.flatten

/-- The unsigned part of `int(s)`. -/
def unsigned? (s : PyStr) : Option ℕ :=
  (digitGroups? asciiDigit? s).bind fun digits =>
    if digits.length ≤ maxStrDigits then some (digitsValue 10 digits) else none

/-- Drop the prefix that base 16 allows, with an underscore after it. -/
def dropHexPrefix (s : PyStr) : PyStr :=
  if s.take 2 = ofString "0x" ∨ s.take 2 = ofString "0X" then
    if (s.drop 2).head? = some (char '_') then s.drop 3 else s.drop 2
  else s

/-- The unsigned part of `int(s, 16)`. -/
def unsignedHex? (s : PyStr) : Option ℕ :=
  (digitGroups? hexDigit? (dropHexPrefix s)).map (digitsValue 16)

/-- Whitespace around an optional sign and an unsigned number. -/
def signed? (unsigned : PyStr → Option ℕ) (s : PyStr) : Option ℤ :=
  match trim s with
  | [] => none
  | c :: rest =>
    if c = char '-' then (unsigned rest).map fun n => -(n : ℤ)
    else if c = char '+' then (unsigned rest).map fun n => (n : ℤ)
    else (unsigned (c :: rest)).map fun n => (n : ℤ)

/-- `int(s)`, `none` where it raises `ValueError`. -/
def int? (s : PyStr) : Option ℤ := signed? unsigned? s

/-- `int(s, 16)`, `none` where it raises `ValueError`. -/
def intHex? (s : PyStr) : Option ℤ := signed? unsignedHex? s

theorem strInt_eq_some_iff {n : ℤ} {s : PyStr} :
    strInt n = some s ↔ (digitsOf n.natAbs).length ≤ maxStrDigits ∧ ofInt n = s := by
  simp [strInt]

theorem length_digitsOf_le {n k : ℕ} (h : n < 10 ^ (k + 1)) : (digitsOf n).length ≤ k + 1 := by
  unfold digitsOf
  split_ifs
  · simp
  · rw [List.length_reverse, Nat.digits_length_le_iff (by norm_num)]
    exact h

theorem lt_pow_length_digitsOf (n : ℕ) : n < 10 ^ (digitsOf n).length := by
  unfold digitsOf
  split_ifs with h
  · rw [h]
    norm_num
  · rw [List.length_reverse]
    exact Nat.lt_base_pow_length_digits (by norm_num)

theorem trim_eq_self {s : PyStr} (h : ∀ c ∈ s, 0x20 < c.val ∧ c.val < 127) : trim s = s := by
  have hspace : ∀ c ∈ s, isCSpace c = false := by
    intro c hc
    have := h c hc
    simp only [isCSpace, decide_eq_false_iff_not]
    omega
  have hmap : s.map toAsciiChar = s := by
    conv_rhs => rw [← List.map_id s]
    exact List.map_congr_left fun c hc => if_pos (h c hc).2
  rw [trim, hmap, dropWhile_eq_self hspace, List.rdropWhile_eq_self_iff]
  intro hs
  simp [hspace _ (List.getLast_mem hs)]

/-- The characters of a decimal spelling. -/
theorem mem_ofInt {n : ℤ} {c : CodePoint} (h : c ∈ ofInt n) :
    c = char '-' ∨ ∃ d < 10, c = digit d := by
  have hnat : c ∈ ofNat n.natAbs → ∃ d < 10, c = digit d := by
    intro hc
    obtain ⟨d, hd, rfl⟩ := List.mem_map.1 hc
    exact ⟨d, lt_ten_of_mem_digitsOf hd, rfl⟩
  unfold ofInt at h
  split_ifs at h
  · exact (List.mem_cons.1 h).imp_right hnat
  · exact .inr (hnat h)

theorem val_mem_ofInt {n : ℤ} {c : CodePoint} (h : c ∈ ofInt n) :
    c.val = 0x2D ∨ (0x30 ≤ c.val ∧ c.val ≤ 0x39) := by
  rcases mem_ofInt h with rfl | ⟨d, hd, rfl⟩
  · exact .inl (char_val '-')
  · rw [digit_val hd]
    omega

theorem ofInt_ne_nil (n : ℤ) : ofInt n ≠ [] := by
  unfold ofInt ofNat
  split_ifs
  · simp
  · simpa using digitsOf_ne_nil _

theorem isSpace_of_mem_ofInt {n : ℤ} {c : CodePoint} (h : c ∈ ofInt n) : isSpace c = false := by
  have := val_mem_ofInt h
  simp only [isSpace, decide_eq_false_iff_not]
  omega

theorem asciiDigit?_digit {d : ℕ} (h : d < 10) : asciiDigit? (digit d) = some d := by
  simp only [asciiDigit?, digit_val h]
  rw [if_pos (by omega), Nat.add_sub_cancel_left]

theorem hexDigit?_hexDigit {d : ℕ} (h : d < 16) : hexDigit? (hexDigit d) = some d := by
  unfold hexDigit?
  rw [hexDigit_val h]
  split_ifs <;> first | omega | exact congrArg some (by omega)

/-- A string without whitespace and sign is read as its digits. -/
theorem signed?_eq {unsigned : PyStr → Option ℕ} {c : CodePoint} {s : PyStr} {n : ℕ}
    (hs : ∀ d ∈ c :: s, 0x2D < d.val ∧ d.val < 127) (h : unsigned (c :: s) = some n) :
    signed? unsigned (c :: s) = some (n : ℤ) := by
  have hne : ∀ d : Char, d.toNat ≤ 0x2D → c ≠ char d := by
    intro d hd heq
    have hval := (hs c List.mem_cons_self).1
    rw [heq, char_val] at hval
    omega
  rw [signed?, trim_eq_self fun d hd => ⟨by have := hs d hd; omega, (hs d hd).2⟩]
  dsimp only
  rw [if_neg (hne '-' (by decide)), if_neg (hne '+' (by decide)), h]
  rfl

section Digits

variable {b : ℕ} {f : ℕ → CodePoint} {digit? : CodePoint → Option ℕ}

theorem mapM_digits (hf : ∀ d < b, digit? (f d) = some d) {digits : List ℕ}
    (h : ∀ d ∈ digits, d < b) : (digits.map f).mapM digit? = some digits := by
  induction digits with
  | nil => rfl
  | cons d digits ih =>
    rw [List.forall_mem_cons] at h
    simp [hf d h.1, ih h.2]

/-- Written digits are read back. -/
theorem digitGroups?_digits (hf : ∀ d < b, digit? (f d) = some d) (hus : digit? (char '_') = none)
    {digits : List ℕ} (hne : digits ≠ []) (h : ∀ d ∈ digits, d < b) :
    digitGroups? digit? (digits.map f) = some digits := by
  have hsplit : (digits.map f).splitOn (char '_') = [digits.map f] := by
    refine List.splitOn_eq_singleton fun hmem => ?_
    obtain ⟨d, hd, hdc⟩ := List.mem_map.1 hmem
    rw [← hdc, hf d (h d hd)] at hus
    cases hus
  have hne' : digits.map f ≠ [] := by simpa using hne
  simp only [digitGroups?, hsplit, List.mapM_cons, List.mapM_nil, if_neg hne', mapM_digits hf h]
  simp

end Digits

theorem unsigned?_ofNat {n : ℕ} (h : (digitsOf n).length ≤ maxStrDigits) :
    unsigned? (ofNat n) = some n := by
  have hgroups : digitGroups? asciiDigit? (ofNat n) = some (digitsOf n) :=
    digitGroups?_digits (fun d => asciiDigit?_digit) (by decide) (digitsOf_ne_nil n)
      fun d => lt_ten_of_mem_digitsOf
  simp [unsigned?, hgroups, h]

/-- **`int` reads back what `str` writes.** -/
theorem int?_ofInt {n : ℤ} (h : (digitsOf n.natAbs).length ≤ maxStrDigits) :
    int? (ofInt n) = some n := by
  by_cases hn : n < 0
  · have htrim := trim_eq_self fun c hc => by
      have := val_mem_ofInt (n := n) hc
      omega
    rw [int?, signed?, htrim]
    simp only [ofInt, if_pos hn, if_true, unsigned?_ofNat h]
    have hneg : -(n.natAbs : ℤ) = n := by omega
    exact congrArg some hneg
  · have hofInt : ofInt n = ofNat n.natAbs := if_neg hn
    have hpos : (n.natAbs : ℤ) = n := by omega
    obtain ⟨c, rest, hcons⟩ := List.exists_cons_of_ne_nil (ofInt_ne_nil n)
    have hunsigned := unsigned?_ofNat h
    rw [← hofInt, hcons] at hunsigned
    rw [int?, hcons, signed?_eq ?_ hunsigned, hpos]
    intro d hd
    rw [← hcons, hofInt] at hd
    obtain ⟨e, he, rfl⟩ := List.mem_map.1 hd
    have := lt_ten_of_mem_digitsOf he
    rw [digit_val this]
    omega

theorem ofNat_injective : Function.Injective ofNat := by
  intro m n h
  have hread : ∀ k, (ofNat k).mapM asciiDigit? = some (digitsOf k) := fun k =>
    mapM_digits (fun d => asciiDigit?_digit) fun d => lt_ten_of_mem_digitsOf
  have hdigits := hread m
  rw [h, hread n] at hdigits
  exact digitsOf_injective (Option.some.inj hdigits).symm

theorem minus_notMem_ofNat (n : ℕ) : char '-' ∉ ofNat n := by
  intro hmem
  obtain ⟨d, hd, hdc⟩ := List.mem_map.1 hmem
  have hval := congrArg Fin.val hdc
  rw [digit_val (lt_ten_of_mem_digitsOf hd), char_val] at hval
  have hminus : ('-' : Char).toNat = 0x2D := rfl
  omega

/-- **Different integers are spelled differently.** -/
theorem ofInt_injective : Function.Injective ofInt := by
  intro m n h
  unfold ofInt at h
  split_ifs at h with hm hn hn
  · have := ofNat_injective (List.cons.inj h).2
    omega
  · exact absurd (h ▸ List.mem_cons_self) (minus_notMem_ofNat n.natAbs)
  · exact absurd (h ▸ List.mem_cons_self) (minus_notMem_ofNat m.natAbs)
  · have := ofNat_injective h
    omega

end PyStr

end Foundations
