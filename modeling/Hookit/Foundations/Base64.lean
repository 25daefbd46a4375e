import Hookit.Foundations.Bytes

/-!
# Base64 for URLs

* `encodeUrl b` is `base64.urlsafe_b64encode(b)`: four characters for every three bytes, padded.
* `decodeUrl? s` is `base64.urlsafe_b64decode(s)`: characters outside both alphabets are skipped,
  and it raises (`none`) where the padding is wrong.
* `decodeUrl?_encodeUrl`: what is encoded is decoded.
-/

namespace Foundations.Base64

/-- The character for six bits. -/
def sextet (n : ℕ) : Byte :=
  if n < 26 then byte (0x41 + n)
  else if n < 52 then byte (0x61 + (n - 26))
  else if n < 62 then byte (0x30 + (n - 52))
  else if n = 62 then byte 0x2D
  else byte 0x5F

/-- `=`. -/
def pad : Byte := byte 0x3D

/-- `base64.urlsafe_b64encode(b)`. -/
def encodeUrl : Bytes → Bytes
  | [] => []
  | [a] => [sextet (a.val / 4), sextet (a.val % 4 * 16), pad, pad]
  | [a, b] => [sextet (a.val / 4), sextet (a.val % 4 * 16 + b.val / 16), sextet (b.val % 16 * 4), pad]
  | a :: b :: c :: rest =>
    sextet (a.val / 4) :: sextet (a.val % 4 * 16 + b.val / 16) ::
      sextet (b.val % 16 * 4 + c.val / 64) :: sextet (c.val % 64) :: encodeUrl rest

/-- The six bits of a character of the plain alphabet or of the one for URLs. -/
def value? (c : Byte) : Option ℕ :=
  if 0x41 ≤ c.val ∧ c.val ≤ 0x5A then some (c.val - 0x41)
  else if 0x61 ≤ c.val ∧ c.val ≤ 0x7A then some (c.val - 0x61 + 26)
  else if 0x30 ≤ c.val ∧ c.val ≤ 0x39 then some (c.val - 0x30 + 52)
  else if c.val = 0x2B ∨ c.val = 0x2D then some 62
  else if c.val = 0x2F ∨ c.val = 0x5F then some 63
  else none

/-- The scan of `binascii.a2b_base64`: `position` characters of the current group of four have
been read, `left` are the bits left over from the last of them, and `pads` counts the padding
characters in a row. -/
def scan (position left pads : ℕ) : Bytes → Option Bytes
  | [] => if position = 0 then some [] else none
  | c :: s =>
    if c = pad then
      if 2 ≤ position ∧ 4 ≤ position + (pads + 1) then some [] else scan position left (pads + 1) s
    else
      match value? c with
      | none => scan position left pads s
      | some v =>
        match position with
        | 0 => scan 1 v 0 s
        | 1 => (scan 2 (v % 16) 0 s).map (byte (left * 4 + v / 16) :: ·)
        | 2 => (scan 3 (v % 4) 0 s).map (byte (left * 16 + v / 4) :: ·)
        | _ => (scan 0 0 0 s).map (byte (left * 64 + v) :: ·)

/-- `base64.urlsafe_b64decode(s)`, `none` where it raises `binascii.Error`. -/
def decodeUrl? (s : Bytes) : Option Bytes := scan 0 0 0 s

/-! ## What is encoded is decoded -/

theorem sextet_lt (n : ℕ) : (sextet n).val < 0x80 := by
  have hbyte : ∀ m < 0x80, (byte m).val < 0x80 := by decide
  unfold sextet
  split_ifs <;> exact hbyte _ (by omega)

/-- The alphabet of base64 is within ASCII. -/
theorem lt_of_mem_encodeUrl : ∀ {b : Bytes} {c : Byte}, c ∈ encodeUrl b → c.val < 0x80
  | [], c, h => by cases h
  | [a], c, h => by
    simp only [encodeUrl, List.mem_cons, List.not_mem_nil, or_false] at h
    rcases h with rfl | rfl | rfl | rfl
    · exact sextet_lt _
    · exact sextet_lt _
    · decide
    · decide
  | [a, b], c, h => by
    simp only [encodeUrl, List.mem_cons, List.not_mem_nil, or_false] at h
    rcases h with rfl | rfl | rfl | rfl
    · exact sextet_lt _
    · exact sextet_lt _
    · exact sextet_lt _
    · decide
  | a :: b :: d :: rest, c, h => by
    simp only [encodeUrl, List.mem_cons] at h
    rcases h with rfl | rfl | rfl | rfl | h
    · exact sextet_lt _
    · exact sextet_lt _
    · exact sextet_lt _
    · exact sextet_lt _
    · exact lt_of_mem_encodeUrl h

theorem value?_sextet : ∀ n < 64, sextet n ≠ pad ∧ value? (sextet n) = some n := by decide

theorem byte_eq {n : ℕ} {b : Byte} (h : n = b.val) : byte n = b :=
  Fin.ext (by rw [h]; exact Nat.mod_eq_of_lt b.isLt)

section Scan

variable {n left pads : ℕ} (h : n < 64) (s : Bytes)
include h

theorem scan_zero : scan 0 left pads (sextet n :: s) = scan 1 n 0 s := by
  rw [scan, if_neg (value?_sextet n h).1, (value?_sextet n h).2]
  rfl

theorem scan_one : scan 1 left pads (sextet n :: s) =
    (scan 2 (n % 16) 0 s).map (byte (left * 4 + n / 16) :: ·) := by
  rw [scan, if_neg (value?_sextet n h).1, (value?_sextet n h).2]
  rfl

theorem scan_two : scan 2 left pads (sextet n :: s) =
    (scan 3 (n % 4) 0 s).map (byte (left * 16 + n / 4) :: ·) := by
  rw [scan, if_neg (value?_sextet n h).1, (value?_sextet n h).2]
  rfl

theorem scan_three : scan 3 left pads (sextet n :: s) =
    (scan 0 0 0 s).map (byte (left * 64 + n) :: ·) := by
  rw [scan, if_neg (value?_sextet n h).1, (value?_sextet n h).2]
  rfl

end Scan

theorem scan_pad_three (left : ℕ) (s : Bytes) : scan 3 left 0 (pad :: s) = some [] := by
  rw [scan, if_pos rfl, if_pos (by omega)]

theorem scan_pad_two (left : ℕ) (s : Bytes) : scan 2 left 0 (pad :: pad :: s) = some [] := by
  rw [scan, if_pos rfl, if_neg (by omega), scan, if_pos rfl, if_pos (by omega)]

/-- **What is encoded is decoded.** -/
theorem decodeUrl?_encodeUrl : ∀ b : Bytes, decodeUrl? (encodeUrl b) = some b
  | [] => rfl
  | [a] => by
    have ha := a.isLt
    rw [decodeUrl?, encodeUrl, scan_zero (by omega), scan_one (by omega), scan_pad_two,
      Option.map_some, byte_eq (b := a) (by omega)]
  | [a, b] => by
    have ha := a.isLt
    have hb := b.isLt
    rw [decodeUrl?, encodeUrl, scan_zero (by omega), scan_one (by omega), scan_two (by omega),
      scan_pad_three, Option.map_some, Option.map_some, byte_eq (b := a) (by omega),
      byte_eq (b := b) (by omega)]
  | a :: b :: c :: rest => by
    have ha := a.isLt
    have hb := b.isLt
    have hc := c.isLt
    have hrest : scan 0 0 0 (encodeUrl rest) = some rest := decodeUrl?_encodeUrl rest
    rw [decodeUrl?, encodeUrl, scan_zero (by omega), scan_one (by omega), scan_two (by omega),
      scan_three (by omega), hrest, Option.map_some, Option.map_some, Option.map_some,
      byte_eq (b := a) (by omega), byte_eq (b := b) (by omega), byte_eq (b := c) (by omega)]

end Foundations.Base64
