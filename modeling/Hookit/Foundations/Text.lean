import Mathlib.Data.Fintype.Basic
import Mathlib.Data.List.Basic

/-!
# Python strings

A Python `str` is a sequence of code points, lone surrogates included. A PostgreSQL text column
reached through psycopg takes such a value if UTF-8 can encode it and it has no U+0000
(`storable`); otherwise the statement that carries it raises.
-/

namespace Foundations

/-- A Unicode code point. -/
abbrev CodePoint := Fin 0x110000

/-- A Python `str`. -/
abbrev PyStr := List CodePoint

/-- Membership in a list of strings is decided by one instance everywhere. -/
instance : LawfulBEq PyStr := inferInstanceAs (LawfulBEq (List CodePoint))

/-- The code point with a number. -/
def codePoint (n : ℕ) : CodePoint := ⟨n % 0x110000, Nat.mod_lt n (Nat.succ_pos _)⟩

namespace PyStr

/-- The code points of a literal. -/
def ofString (s : String) : PyStr := s.toList.map fun c => Fin.ofNat _ c.toNat

/-- A text column takes the code point: neither U+0000 nor a surrogate. -/
def storableChar (c : CodePoint) : Bool := c.val ≠ 0 ∧ ¬ (0xD800 ≤ c.val ∧ c.val ≤ 0xDFFF)

/-- A text column takes the string. -/
def storable (s : PyStr) : Bool := s.all storableChar

end PyStr

end Foundations
