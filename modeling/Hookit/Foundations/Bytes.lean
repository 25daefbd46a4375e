import Hookit.Foundations.Text
import Mathlib.Data.List.Basic

/-!
# UTF-8

A Python `bytes` is a list of bytes.

* `encode s` is `s.encode()`, which raises on a surrogate (`none`); on ASCII text it is the code
  points themselves (`encode_eq_ascii`).
* `decodeUnits` cuts bytes into characters and ill-formed pieces, each piece as long as it is the
  start of a character. `decode? b` is `b.decode()`, which raises where a piece is ill-formed, and
  `decodeReplace b` is `b.decode(errors="replace")`.
-/

namespace Foundations

/-- A byte. -/
abbrev Byte := Fin 256

/-- The byte with a number. -/
def byte (n : ℕ) : Byte := ⟨n % 256, Nat.mod_lt n (Nat.succ_pos _)⟩

/-- A Python `bytes`. -/
abbrev Bytes := List Byte

namespace PyStr

/-- A surrogate code point. -/
def isSurrogate (c : CodePoint) : Bool := 0xD800 ≤ c.val ∧ c.val ≤ 0xDFFF

/-- The UTF-8 bytes of a code point. -/
def encodeChar (c : CodePoint) : Bytes :=
  let continuation (n : ℕ) : Byte := byte (0x80 + n % 64)
  if c.val < 0x80 then [byte c.val]
  else if c.val < 0x800 then [byte (0xC0 + c.val / 64), continuation c.val]
  else if c.val < 0x10000 then
    [byte (0xE0 + c.val / 4096), continuation (c.val / 64), continuation c.val]
  else
    [byte (0xF0 + c.val / 262144), continuation (c.val / 4096), continuation (c.val / 64),
      continuation c.val]

/-- `s.encode()`, `none` where it raises `UnicodeEncodeError`. -/
def encode (s : PyStr) : Option Bytes :=
  if s.any isSurrogate then none else some (s.flatMap encodeChar)

/-- The string is ASCII. -/
def isAscii (s : PyStr) : Bool := s.all fun c => c.val < 0x80

/-- The byte with the number of a code point. -/
def byteOf (c : CodePoint) : Byte := byte c.val

theorem isAscii_iff {s : PyStr} : isAscii s = true ↔ ∀ c ∈ s, c.val < 0x80 := by
  simp [isAscii]

theorem isAscii_append {s t : PyStr} : isAscii (s ++ t) = (isAscii s && isAscii t) :=
  List.all_append

theorem isAscii_cons {c : CodePoint} {s : PyStr} :
    isAscii (c :: s) = (decide (c.val < 0x80) && isAscii s) :=
  List.all_cons

theorem encode_eq_ascii {s : PyStr} (h : isAscii s = true) : encode s = some (s.map byteOf) := by
  rw [isAscii_iff] at h
  have hsurrogate : s.any isSurrogate = false := by
    rw [List.any_eq_false]
    intro c hc
    have := h c hc
    simp only [isSurrogate, decide_eq_true_eq]
    omega
  have hmap : s.flatMap encodeChar = s.map byteOf := by
    rw [List.map_eq_flatMap]
    refine List.flatMap_congr fun c hc => ?_
    simp [encodeChar, h c hc, byteOf]
  simp [encode, hsurrogate, hmap]

theorem byteOf_injOn {c d : CodePoint} (hc : c.val < 0x80) (hd : d.val < 0x80)
    (h : byteOf c = byteOf d) : c = d := by
  have hval : c.val % 256 = d.val % 256 := congrArg Fin.val h
  ext
  omega

/-- ASCII strings with the same bytes are equal. -/
theorem map_byteOf_inj {s t : PyStr} (hs : isAscii s = true) (ht : isAscii t = true)
    (h : s.map byteOf = t.map byteOf) : s = t := by
  rw [isAscii_iff] at hs ht
  induction s generalizing t with
  | nil => simpa using h.symm
  | cons c s ih =>
    cases t with
    | nil => simp at h
    | cons d t =>
      rw [List.forall_mem_cons] at hs ht
      obtain ⟨hcd, hrest⟩ := List.cons.inj h
      rw [byteOf_injOn hs.1 ht.1 hcd, ih hs.2 ht.2 hrest]

/-! ## Decoding -/

/-- A continuation byte. -/
def isContinuation (b : Byte) : Bool := 0x80 ≤ b.val ∧ b.val ≤ 0xBF

/-- The length of a character by its first byte, 0 if no character starts so. -/
def sizeOf (b : Byte) : ℕ :=
  if b.val < 0x80 then 1
  else if b.val < 0xC2 then 0
  else if b.val < 0xE0 then 2
  else if b.val < 0xF0 then 3
  else if b.val < 0xF5 then 4
  else 0

/-- The second byte of a character may follow the first one; surrogates are admitted on demand. -/
def isSecond (surrogates : Bool) (b c : Byte) : Bool :=
  isContinuation c && !(b.val = 0xE0 && c.val < 0xA0) &&
    !(b.val = 0xED && 0x9F < c.val && !surrogates) && !(b.val = 0xF0 && c.val < 0x90) &&
    !(b.val = 0xF4 && 0x8F < c.val)

/-- The first piece of `b :: s`: how many bytes it has, and its character if it is well-formed. -/
def firstUnit (surrogates : Bool) (b : Byte) (s : Bytes) : ℕ × Option CodePoint :=
  let tail (i : ℕ) : ℕ := (s[i]?.map fun c => c.val % 64).getD 0
  let second := s[0]?.any (isSecond surrogates b)
  let third := s[1]?.any isContinuation
  let fourth := s[2]?.any isContinuation
  match sizeOf b with
  | 1 => (1, some (codePoint b.val))
  | 2 =>
    if !second then (1, none) else (2, some (codePoint (b.val % 32 * 64 + tail 0)))
  | 3 =>
    if !second then (1, none)
    else if !third then (2, none)
    else (3, some (codePoint ((b.val % 16 * 64 + tail 0) * 64 + tail 1)))
  | 4 =>
    if !second then (1, none)
    else if !third then (2, none)
    else if !fourth then (3, none)
    else (4, some (codePoint (((b.val % 8 * 64 + tail 0) * 64 + tail 1) * 64 + tail 2)))
  | _ => (1, none)

/-- The pieces after the first `skip` bytes. -/
def unitsFrom (surrogates : Bool) : ℕ → Bytes → List (Option CodePoint)
  | _, [] => []
  | skip + 1, _ :: s => unitsFrom surrogates skip s
  | 0, b :: s =>
    (firstUnit surrogates b s).2 :: unitsFrom surrogates ((firstUnit surrogates b s).1 - 1) s

/-- The characters and the ill-formed pieces of a byte string. -/
def decodeUnits (surrogates : Bool) (b : Bytes) : List (Option CodePoint) :=
  unitsFrom surrogates 0 b

/-- `b.decode()`, `none` where it raises `UnicodeDecodeError`. -/
def decode? (b : Bytes) : Option PyStr := (decodeUnits false b).mapM id

/-- `b.decode(errors="replace")`. -/
def decodeReplace (b : Bytes) : PyStr :=
  (decodeUnits false b).map fun c => c.getD (codePoint 0xFFFD)

theorem decodeUnits_ascii (surrogates : Bool) {s : PyStr} (h : isAscii s = true) :
    decodeUnits surrogates (s.map byteOf) = s.map some := by
  rw [isAscii_iff] at h
  unfold decodeUnits
  induction s with
  | nil => rfl
  | cons c s ih =>
    rw [List.forall_mem_cons] at h
    have hval : (byteOf c).val = c.val := Nat.mod_eq_of_lt (by omega)
    have hsize : sizeOf (byteOf c) = 1 := by rw [sizeOf, hval, if_pos h.1]
    have hchar : codePoint c.val = c := Fin.ext (Nat.mod_eq_of_lt c.isLt)
    simp only [List.map_cons, unitsFrom, firstUnit, hsize, hval, hchar]
    exact congrArg (some c :: ·) (ih h.2)

/-- **ASCII text survives encoding and decoding.** -/
theorem decode?_ascii {s : PyStr} (h : isAscii s = true) : decode? (s.map byteOf) = some s := by
  rw [decode?, decodeUnits_ascii false h]
  clear h
  induction s with
  | nil => rfl
  | cons c s ih => simp [ih]

end PyStr

end Foundations
