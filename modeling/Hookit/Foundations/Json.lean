import Hookit.Foundations.Bytes
import Hookit.Foundations.Numeral

/-!
# JSON documents

The values that `json.loads` returns, and `json.dumps`.

* `JsonFloat` is a finite `float` given by the decimal that its `repr` spells; `JsonInt` is an
  integer short enough for `str` and `int`.
* `dumps itemSep keySep doc` is `json.dumps(doc, separators=(itemSep, keySep))`: ASCII only, with
  everything else escaped (`isAscii_dumps`).
* `repr` and `toStr` are Python's `repr(x)` and `str(x)`; which characters are printable is a
  parameter.
-/

namespace Foundations

open PyStr

/-- An integer with at most 4300 digits: `json.loads` reads no other. -/
abbrev JsonInt := {n : ℤ // (digitsOf n.natAbs).length ≤ maxStrDigits}

/-- A finite float: `± coefficient * 10 ^ exponent` is the shortest decimal that reads as it. -/
structure JsonFloat where
  negative : Bool
  coefficient : ℕ
  exponent : ℤ
  normal : (coefficient = 0 ∧ exponent = 0) ∨ ¬ 10 ∣ coefficient

namespace JsonFloat

/-- The position of the decimal point, counted from the first digit. -/
def point (x : JsonFloat) : ℤ := (digitsOf x.coefficient).length + x.exponent

/-- The digits with the decimal point among them, before them or after them. -/
def fixed (digits : PyStr) (point : ℤ) : PyStr :=
  if point ≤ 0 then ofString "0." ++ List.replicate (-point).toNat (digit 0) ++ digits
  else if point.toNat < digits.length then
    digits.take point.toNat ++ char '.' :: digits.drop point.toNat
  else digits ++ List.replicate (point.toNat - digits.length) (digit 0) ++ ofString ".0"

/-- Scientific notation. -/
def scientific (digits : PyStr) (point : ℤ) : PyStr :=
  let exponent := point - 1
  let mantissa :=
    if digits.length ≤ 1 then digits else digits.take 1 ++ char '.' :: digits.drop 1
  let sign := if exponent < 0 then char '-' else char '+'
  let size := PyStr.ofNat exponent.natAbs
  mantissa ++ char 'e' :: sign :: (if size.length < 2 then digit 0 :: size else size)

/-- `repr(x)`. -/
def repr (x : JsonFloat) : PyStr :=
  let digits := PyStr.ofNat x.coefficient
  let body :=
    if x.coefficient = 0 then ofString "0.0"
    else if -4 < x.point ∧ x.point ≤ 16 then fixed digits x.point
    else scientific digits x.point
  if x.negative then char '-' :: body else body

end JsonFloat

/-- A value that `json.loads` returns. -/
inductive Json
  | null
  | bool (b : Bool)
  | int (n : JsonInt)
  | float (x : JsonFloat)
  | infinity (negative : Bool)
  | nan
  | str (s : PyStr)
  | arr (items : List Json)
  | obj (items : List (PyStr × Json))

namespace Json

/-- The quotation mark. -/
def quoteMark : CodePoint := codePoint 0x22

/-- The backslash. -/
def backslash : CodePoint := codePoint 0x5C

/-- Four hexadecimal digits after a backslash and a `u`. -/
def escapeUnit (n : ℕ) : PyStr := backslash :: char 'u' :: (fixedDigits 16 4 n).map hexDigit

/-- One character of a string. -/
def escapeChar (c : CodePoint) : PyStr :=
  if c = quoteMark then [backslash, quoteMark]
  else if c = backslash then [backslash, backslash]
  else if c = char '\n' then ofString "\\n"
  else if c = char '\r' then ofString "\\r"
  else if c = char '\t' then ofString "\\t"
  else if c.val = 0x0C then ofString "\\f"
  else if c.val = 0x08 then ofString "\\b"
  else if 0x20 ≤ c.val ∧ c.val ≤ 0x7E then [c]
  else if c.val < 0x10000 then escapeUnit c.val
  else escapeUnit (0xD800 + (c.val - 0x10000) / 0x400) ++
    escapeUnit (0xDC00 + (c.val - 0x10000) % 0x400)

/-- A string in quotes. -/
def quote (s : PyStr) : PyStr := quoteMark :: (s.flatMap escapeChar ++ [quoteMark])

section Dumps

variable (itemSep keySep : PyStr)

mutual

/-- `json.dumps(doc, separators=(itemSep, keySep))`. -/
def dumps : Json → PyStr
  | null => ofString "null"
  | bool b => if b then ofString "true" else ofString "false"
  | int n => ofInt n.val
  | float x => x.repr
  | infinity negative => if negative then ofString "-Infinity" else ofString "Infinity"
  | nan => ofString "NaN"
  | str s => quote s
  | arr items => char '[' :: dumpsItems items
  | obj items => codePoint 0x7B :: dumpsFields items

/-- The items of an array and its closing bracket. -/
def dumpsItems : List Json → PyStr
  | [] => [char ']']
  | [x] => dumps x ++ [char ']']
  | x :: y :: items => dumps x ++ itemSep ++ dumpsItems (y :: items)

/-- The items of an object and its closing bracket. -/
def dumpsFields : List (PyStr × Json) → PyStr
  | [] => [codePoint 0x7D]
  | [(k, x)] => quote k ++ keySep ++ dumps x ++ [codePoint 0x7D]
  | (k, x) :: y :: items => quote k ++ keySep ++ dumps x ++ itemSep ++ dumpsFields (y :: items)

end

end Dumps

/-! ## Only ASCII -/

theorem isAscii_escapeUnit (n : ℕ) : isAscii (escapeUnit n) = true := by
  have hdigits : isAscii ((fixedDigits 16 4 n).map hexDigit) = true := by
    refine isAscii_iff.2 fun c hc => ?_
    obtain ⟨d, hd, rfl⟩ := List.mem_map.1 hc
    rw [hexDigit_val (lt_of_mem_fixedDigits (by norm_num) hd)]
    have := lt_of_mem_fixedDigits (by norm_num) hd
    split_ifs <;> omega
  rw [escapeUnit, isAscii_cons, isAscii_cons, hdigits]
  decide

theorem isAscii_escapeChar (c : CodePoint) : isAscii (escapeChar c) = true := by
  have hself : c.val ≤ 0x7E → isAscii [c] = true := by
    intro hc
    rw [isAscii_iff, List.forall_mem_singleton]
    omega
  have hpair : ∀ m n, isAscii (escapeUnit m ++ escapeUnit n) = true := by
    intro m n
    rw [isAscii_append, isAscii_escapeUnit, isAscii_escapeUnit]
    rfl
  unfold escapeChar
  split_ifs with h₁ h₂ h₃ h₄ h₅ h₆ h₇ h₈ h₉
  · decide
  · decide
  · decide
  · decide
  · decide
  · decide
  · decide
  · exact hself h₈.2
  · exact isAscii_escapeUnit _
  · exact hpair _ _

theorem isAscii_quote (s : PyStr) : isAscii (quote s) = true := by
  refine isAscii_iff.2 fun c hc => ?_
  rw [quote, List.mem_cons, List.mem_append, List.mem_flatMap, List.mem_singleton] at hc
  have hquote : quoteMark.val < 0x80 := by decide
  rcases hc with rfl | ⟨d, -, hc⟩ | rfl
  · exact hquote
  · exact isAscii_iff.1 (isAscii_escapeChar d) c hc
  · exact hquote

end Json

/-! ## Numbers -/

/-- The characters that numbers are written with. -/
def NumberChar (c : CodePoint) : Prop :=
  c.val = 0x2B ∨ c.val = 0x2D ∨ c.val = 0x2E ∨ (0x30 ≤ c.val ∧ c.val ≤ 0x39) ∨ c.val = 0x65

instance (c : CodePoint) : Decidable (NumberChar c) := inferInstanceAs (Decidable (_ ∨ _))

theorem numberChar_digit {d : ℕ} (h : d < 10) : NumberChar (digit d) := by
  rw [NumberChar, digit_val h]
  omega

theorem numberChar_of_mem_ofNat {n : ℕ} {c : CodePoint} (h : c ∈ PyStr.ofNat n) : NumberChar c := by
  obtain ⟨d, hd, rfl⟩ := List.mem_map.1 h
  exact numberChar_digit (lt_ten_of_mem_digitsOf hd)

theorem numberChar_of_mem_ofInt {n : ℤ} {c : CodePoint} (h : c ∈ ofInt n) : NumberChar c := by
  have := val_mem_ofInt h
  unfold NumberChar
  omega

namespace JsonFloat

theorem numberChar_of_mem_replicate {n : ℕ} {c : CodePoint} (h : c ∈ List.replicate n (digit 0)) :
    NumberChar c := by
  rw [List.eq_of_mem_replicate h]
  exact numberChar_digit (by norm_num)

theorem numberChar_of_mem_fixed {s : PyStr} (hs : ∀ c ∈ s, NumberChar c) {point : ℤ} {c : CodePoint}
    (h : c ∈ fixed s point) : NumberChar c := by
  have hzero : ofString "0." = [digit 0, char '.'] := rfl
  have htail : ofString ".0" = [char '.', digit 0] := rfl
  have h0 : NumberChar (digit 0) := numberChar_digit (by norm_num)
  have hdot : NumberChar (char '.') := by decide
  unfold fixed at h
  split_ifs at h
  · simp only [hzero, List.mem_append, List.mem_cons, List.not_mem_nil, or_false] at h
    rcases h with ((rfl | rfl) | h) | h
    · exact h0
    · exact hdot
    · exact numberChar_of_mem_replicate h
    · exact hs c h
  · simp only [List.mem_append, List.mem_cons] at h
    rcases h with h | rfl | h
    · exact hs c (List.mem_of_mem_take h)
    · exact hdot
    · exact hs c (List.mem_of_mem_drop h)
  · simp only [htail, List.mem_append, List.mem_cons, List.not_mem_nil, or_false] at h
    rcases h with (h | h) | rfl | rfl
    · exact hs c h
    · exact numberChar_of_mem_replicate h
    · exact hdot
    · exact h0

theorem numberChar_of_mem_scientific {s : PyStr} (hs : ∀ c ∈ s, NumberChar c) {point : ℤ}
    {c : CodePoint} (h : c ∈ scientific s point) : NumberChar c := by
  simp only [scientific, List.mem_append, List.mem_cons] at h
  rcases h with h | rfl | rfl | h
  · split_ifs at h
    · exact hs c h
    · simp only [List.mem_append, List.mem_cons] at h
      rcases h with h | rfl | h
      · exact hs c (List.mem_of_mem_take h)
      · exact by decide
      · exact hs c (List.mem_of_mem_drop h)
  · exact by decide
  · split_ifs
    · exact by decide
    · exact by decide
  · split_ifs at h
    · rcases List.mem_cons.1 h with rfl | h
      · exact numberChar_digit (by norm_num)
      · exact numberChar_of_mem_ofNat h
    · exact numberChar_of_mem_ofNat h

theorem numberChar_of_mem_repr {x : JsonFloat} {c : CodePoint} (h : c ∈ x.repr) : NumberChar c := by
  have hdigits : ∀ c ∈ PyStr.ofNat x.coefficient, NumberChar c := fun c => numberChar_of_mem_ofNat
  have hzero : ofString "0.0" = [digit 0, char '.', digit 0] := rfl
  have hbody : ∀ {c : CodePoint}, c ∈ (if x.coefficient = 0 then ofString "0.0"
      else if -4 < x.point ∧ x.point ≤ 16 then fixed (PyStr.ofNat x.coefficient) x.point
      else scientific (PyStr.ofNat x.coefficient) x.point) → NumberChar c := by
    intro c hc
    split_ifs at hc
    · simp only [hzero, List.mem_cons, List.not_mem_nil, or_false] at hc
      rcases hc with rfl | rfl | rfl
      · exact numberChar_digit (by norm_num)
      · exact by decide
      · exact numberChar_digit (by norm_num)
    · exact numberChar_of_mem_fixed hdigits hc
    · exact numberChar_of_mem_scientific hdigits hc
  rw [repr] at h
  split at h
  · rcases List.mem_cons.1 h with rfl | h
    · exact by decide
    · exact hbody h
  · exact hbody h

theorem isAscii_repr (x : JsonFloat) : isAscii x.repr = true := by
  refine isAscii_iff.2 fun c hc => ?_
  have := numberChar_of_mem_repr hc
  unfold NumberChar at this
  omega

end JsonFloat

namespace Json

variable {itemSep keySep : PyStr}

mutual

/-- **`json.dumps` writes ASCII.** -/
theorem isAscii_dumps (hitem : isAscii itemSep = true) (hkey : isAscii keySep = true) :
    ∀ doc : Json, isAscii (dumps itemSep keySep doc) = true
  | null => by
    simp only [dumps]
    decide
  | bool b => by
    cases b <;> (simp only [dumps]; decide)
  | int n => by
    simp only [dumps]
    refine isAscii_iff.2 fun c hc => ?_
    have := val_mem_ofInt hc
    omega
  | float x => by
    simp only [dumps]
    exact x.isAscii_repr
  | infinity negative => by
    cases negative <;> (simp only [dumps]; decide)
  | nan => by
    simp only [dumps]
    decide
  | str s => by
    simp only [dumps]
    exact isAscii_quote s
  | arr items => by
    have hopen : (char '[').val < 0x80 := by decide
    simp only [dumps, isAscii_cons, hopen, isAscii_dumpsItems hitem hkey items]
    rfl
  | obj items => by
    have hopen : (codePoint 0x7B).val < 0x80 := by decide
    simp only [dumps, isAscii_cons, hopen, isAscii_dumpsFields hitem hkey items]
    rfl

theorem isAscii_dumpsItems (hitem : isAscii itemSep = true) (hkey : isAscii keySep = true) :
    ∀ items : List Json, isAscii (dumpsItems itemSep keySep items) = true
  | [] => by
    simp only [dumpsItems]
    decide
  | [x] => by
    have hclose : isAscii [char ']'] = true := by decide
    simp only [dumpsItems, isAscii_append, isAscii_dumps hitem hkey x, hclose]
    rfl
  | x :: y :: items => by
    simp only [dumpsItems, isAscii_append, isAscii_dumps hitem hkey x, hitem,
      isAscii_dumpsItems hitem hkey (y :: items)]
    rfl

theorem isAscii_dumpsFields (hitem : isAscii itemSep = true) (hkey : isAscii keySep = true) :
    ∀ items : List (PyStr × Json), isAscii (dumpsFields itemSep keySep items) = true
  | [] => by
    simp only [dumpsFields]
    decide
  | [(k, x)] => by
    have hclose : isAscii [codePoint 0x7D] = true := by decide
    simp only [dumpsFields, isAscii_append, isAscii_quote, hkey, isAscii_dumps hitem hkey x, hclose]
    rfl
  | (k, x) :: y :: items => by
    simp only [dumpsFields, isAscii_append, isAscii_quote, hkey, isAscii_dumps hitem hkey x, hitem,
      isAscii_dumpsFields hitem hkey (y :: items)]
    rfl

end

/-! ## `str` and `repr` -/

section Repr

variable (printable : CodePoint → Bool)

/-- One character of `repr(s)`, in quotes of the kind `q`. -/
def reprChar (q c : CodePoint) : PyStr :=
  let escape (letter : Char) (k : ℕ) : PyStr :=
    backslash :: char letter :: (fixedDigits 16 k c.val).map hexDigit
  if c = q ∨ c = backslash then [backslash, c]
  else if c = char '\t' then [backslash, char 't']
  else if c = char '\n' then [backslash, char 'n']
  else if c = char '\r' then [backslash, char 'r']
  else if 0x20 ≤ c.val ∧ c.val < 0x7F then [c]
  else if 0x7F < c.val ∧ printable c then [c]
  else if c.val ≤ 0xFF then escape 'x' 2
  else if c.val ≤ 0xFFFF then escape 'u' 4
  else escape 'U' 8

/-- `repr(s)`. -/
def reprStr (s : PyStr) : PyStr :=
  let single : CodePoint := codePoint 0x27
  let q := if s.any (· = single) && !s.any (· = quoteMark) then quoteMark else single
  q :: (s.flatMap (reprChar printable q) ++ [q])

mutual

/-- `repr(x)`. -/
def repr : Json → PyStr
  | null => ofString "None"
  | bool b => if b then ofString "True" else ofString "False"
  | int n => ofInt n.val
  | float x => x.repr
  | infinity negative => if negative then ofString "-inf" else ofString "inf"
  | nan => ofString "nan"
  | str s => reprStr printable s
  | arr items => char '[' :: reprItems items
  | obj items => codePoint 0x7B :: reprFields items

/-- The items of a list and its closing bracket. -/
def reprItems : List Json → PyStr
  | [] => [char ']']
  | [x] => repr x ++ [char ']']
  | x :: y :: items => repr x ++ ofString ", " ++ reprItems (y :: items)

/-- The items of a dict and its closing bracket. -/
def reprFields : List (PyStr × Json) → PyStr
  | [] => [codePoint 0x7D]
  | [(k, x)] => reprStr printable k ++ ofString ": " ++ repr x ++ [codePoint 0x7D]
  | (k, x) :: y :: items =>
    reprStr printable k ++ ofString ": " ++ repr x ++ ofString ", " ++ reprFields (y :: items)

end

/-- `str(x)`, which leaves a string as it is. -/
def toStr : Json → PyStr
  | str s => s
  | x => repr printable x

end Repr

/-! ## What `repr` writes can be stored -/

section Storable

variable {printable : CodePoint → Bool}

theorem storable_append {s t : PyStr} : storable (s ++ t) = (storable s && storable t) :=
  List.all_append

theorem storable_cons {c : CodePoint} {s : PyStr} :
    storable (c :: s) = (storableChar c && storable s) := List.all_cons

theorem storable_of_visible {s : PyStr} (h : ∀ c ∈ s, 0x20 ≤ c.val ∧ c.val < 0x7F) :
    storable s = true := by
  refine List.all_eq_true.2 fun c hc => ?_
  have := h c hc
  simp only [storableChar, decide_eq_true_eq]
  omega

/-- The character is one of ASCII's printable ones. -/
def isVisible (c : CodePoint) : Bool := 0x20 ≤ c.val ∧ c.val < 0x7F

theorem storable_of_isVisible (c : CodePoint) (h : isVisible c = true) : storableChar c = true := by
  simp only [isVisible, storableChar, decide_eq_true_eq] at h ⊢
  omega

theorem storable_of_numberChar {s : PyStr} (h : ∀ c ∈ s, NumberChar c) : storable s = true := by
  refine storable_of_visible fun c hc => ?_
  have := h c hc
  unfold NumberChar at this
  omega

theorem storable_reprChar (hprintable : ∀ c, printable c = true → storableChar c = true)
    {q : CodePoint} (hq : storableChar q = true) (c : CodePoint) :
    storable (reprChar printable q c) = true := by
  have hslash : storableChar backslash = true := by decide
  have hletter : storableChar (char 't') = true ∧ storableChar (char 'n') = true ∧
      storableChar (char 'r') = true ∧ storableChar (char 'x') = true ∧
      storableChar (char 'u') = true ∧ storableChar (char 'U') = true := by decide
  have hhex : ∀ k n : ℕ, storable ((fixedDigits 16 k n).map hexDigit) = true := by
    intro k n
    refine storable_of_visible fun c hc => ?_
    obtain ⟨d, hd, rfl⟩ := List.mem_map.1 hc
    have hlt := lt_of_mem_fixedDigits (by norm_num) hd
    rw [hexDigit_val hlt]
    split_ifs <;> omega
  have hnil : storable [] = true := rfl
  simp only [reprChar]
  split_ifs with h1 h2 h3 h4 h5 h6
  · rcases h1 with rfl | rfl
    · simp only [storable_cons, hslash, hq, hnil, Bool.and_self]
    · simp only [storable_cons, hslash, hnil, Bool.and_self]
  · simp only [storable_cons, hslash, hletter, hnil, Bool.and_self]
  · simp only [storable_cons, hslash, hletter, hnil, Bool.and_self]
  · simp only [storable_cons, hslash, hletter, hnil, Bool.and_self]
  · refine storable_of_visible fun d hd => ?_
    rw [List.mem_singleton.1 hd]
    exact h5
  · simp only [storable_cons, hprintable c h6.2, hnil, Bool.and_self]
  · simp only [storable_cons, hslash, hletter, hhex, Bool.and_self]
  · simp only [storable_cons, hslash, hletter, hhex, Bool.and_self]
  · simp only [storable_cons, hslash, hletter, hhex, Bool.and_self]

theorem storable_reprStr (hprintable : ∀ c, printable c = true → storableChar c = true)
    (s : PyStr) : storable (reprStr printable s) = true := by
  have hsingle : storableChar (codePoint 0x27) = true := by decide
  have hdouble : storableChar quoteMark = true := by decide
  simp only [reprStr]
  generalize hq : (if (s.any (· = codePoint 0x27) && !s.any (· = quoteMark)) = true then quoteMark
    else codePoint 0x27) = q
  have hq' : storableChar q = true := by
    rw [← hq]
    split_ifs <;> assumption
  have hnil : storable [] = true := rfl
  have hflat : storable (s.flatMap (reprChar printable q)) = true := by
    refine List.all_eq_true.2 fun c hc => ?_
    obtain ⟨d, -, hd⟩ := List.mem_flatMap.1 hc
    exact List.all_eq_true.1 (storable_reprChar hprintable hq' d) c hd
  simp only [storable_cons, storable_append, hq', hflat, hnil, Bool.and_self]

mutual

/-- **`repr` writes no character that a text column refuses.** -/
theorem storable_repr (hprintable : ∀ c, printable c = true → storableChar c = true) :
    ∀ doc : Json, storable (repr printable doc) = true
  | null => (by decide : storable (ofString "None") = true)
  | bool true => (by decide : storable (ofString "True") = true)
  | bool false => (by decide : storable (ofString "False") = true)
  | int n => storable_of_numberChar fun _ => numberChar_of_mem_ofInt
  | float x => storable_of_numberChar fun _ => JsonFloat.numberChar_of_mem_repr
  | infinity true => (by decide : storable (ofString "-inf") = true)
  | infinity false => (by decide : storable (ofString "inf") = true)
  | nan => (by decide : storable (ofString "nan") = true)
  | str s => storable_reprStr hprintable s
  | arr items => by
    have hopen : storableChar (char '[') = true := by decide
    simp only [repr, storable_cons, hopen, storable_reprItems hprintable items, Bool.and_self]
  | obj items => by
    have hopen : storableChar (codePoint 0x7B) = true := by decide
    simp only [repr, storable_cons, hopen, storable_reprFields hprintable items, Bool.and_self]

theorem storable_reprItems (hprintable : ∀ c, printable c = true → storableChar c = true) :
    ∀ items : List Json, storable (reprItems printable items) = true
  | [] => (by decide : storable [char ']'] = true)
  | [x] => by
    have hclose : storable [char ']'] = true := by decide
    simp only [reprItems, storable_append, storable_repr hprintable x, hclose, Bool.and_self]
  | x :: y :: items => by
    have hsep : storable (ofString ", ") = true := by decide
    simp only [reprItems, storable_append, storable_repr hprintable x, hsep,
      storable_reprItems hprintable (y :: items), Bool.and_self]

theorem storable_reprFields (hprintable : ∀ c, printable c = true → storableChar c = true) :
    ∀ items : List (PyStr × Json), storable (reprFields printable items) = true
  | [] => (by decide : storable [codePoint 0x7D] = true)
  | [(k, x)] => by
    have hclose : storable [codePoint 0x7D] = true := by decide
    have hsep : storable (ofString ": ") = true := by decide
    simp only [reprFields, storable_append, storable_reprStr hprintable k, hsep,
      storable_repr hprintable x, hclose, Bool.and_self]
  | (k, x) :: y :: items => by
    have hsep : storable (ofString ": ") = true := by decide
    have hcomma : storable (ofString ", ") = true := by decide
    simp only [reprFields, storable_append, storable_reprStr hprintable k, hsep,
      storable_repr hprintable x, hcomma, storable_reprFields hprintable (y :: items),
      Bool.and_self]

end

end Storable

/-- `dict.get`. -/
def get (items : List (PyStr × Json)) (key : PyStr) : Option Json := items.lookup key

end Json

end Foundations
