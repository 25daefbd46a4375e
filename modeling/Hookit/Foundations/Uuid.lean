import Hookit.Foundations.Numeral

/-!
# UUIDs in text

A UUID is a 128-bit number. `Uuid.str u` is `str(u)`, five groups of hexadecimal digits, and
`uuid? s` is `uuid.UUID(s)`, which is much more liberal; it raises `ValueError` (`none`).

* `uuid?_str`: the constructor reads back what `str` writes.
-/

namespace Foundations

open PyStr

/-- A UUID. -/
abbrev Uuid := Fin (2 ^ 128)

namespace Uuid

/-- The 32 hexadecimal digits. -/
def hex (u : Uuid) : PyStr := (fixedDigits 16 32 u.val).map hexDigit

/-- `str(u)`. -/
def str (u : Uuid) : PyStr :=
  let h := u.hex
  h.take 8 ++ char '-' :: ((h.drop 8).take 4 ++ char '-' :: ((h.drop 12).take 4 ++
    char '-' :: ((h.drop 16).take 4 ++ char '-' :: h.drop 20)))

/-- Drop the occurrences of a pattern from a string, after `skip` characters that belong to one. -/
def removeFrom (pattern : PyStr) : ℕ → PyStr → PyStr
  | _, [] => []
  | skip + 1, _ :: s => removeFrom pattern skip s
  | 0, c :: s =>
    if pattern.isPrefixOf (c :: s) then removeFrom pattern (pattern.length - 1) s
    else c :: removeFrom pattern 0 s

/-- `s.replace(pattern, "")`. -/
def remove (pattern s : PyStr) : PyStr := removeFrom pattern 0 s

/-- The curly brackets. -/
def isBrace (c : CodePoint) : Bool := c.val = 0x7B ∨ c.val = 0x7D

/-- `s.strip("\x7b\x7d")`. -/
def stripBraces (s : PyStr) : PyStr := (s.dropWhile isBrace).rdropWhile isBrace

/-- What `uuid.UUID(s)` reads as a number. -/
def digitsPart (s : PyStr) : PyStr :=
  (stripBraces (remove (ofString "uuid:") (remove (ofString "urn:") s))).filter (· ≠ char '-')

/-- The number as a UUID, if it is one. -/
def ofInt? (n : ℤ) : Option Uuid :=
  if h : 0 ≤ n ∧ n < 2 ^ 128 then some ⟨n.toNat, by omega⟩ else none

/-- The UUID with a number. -/
def ofNat (n : ℕ) : Uuid := ⟨n % 2 ^ 128, Nat.mod_lt n (Nat.two_pow_pos 128)⟩

/-- `uuid.UUID(s)`, `none` where it raises `ValueError`. -/
def uuid? (s : PyStr) : Option Uuid :=
  if (digitsPart s).length = 32 then (intHex? (digitsPart s)).bind ofInt? else none

theorem val_mem_hex {u : Uuid} {c : CodePoint} (h : c ∈ u.hex) :
    (0x30 ≤ c.val ∧ c.val ≤ 0x39) ∨ (0x61 ≤ c.val ∧ c.val ≤ 0x66) := by
  obtain ⟨d, hd, rfl⟩ := List.mem_map.1 h
  have hlt := lt_of_mem_fixedDigits (by norm_num) hd
  rw [hexDigit_val hlt]
  split_ifs <;> omega

@[simp] theorem length_hex (u : Uuid) : u.hex.length = 32 := by simp [hex]

theorem val_mem_str {u : Uuid} {c : CodePoint} (h : c ∈ u.str) :
    c.val = 0x2D ∨ (0x30 ≤ c.val ∧ c.val ≤ 0x39) ∨ (0x61 ≤ c.val ∧ c.val ≤ 0x66) := by
  have hdash : (char '-').val = 0x2D := char_val '-'
  simp only [str, List.mem_append, List.mem_cons] at h
  rcases h with h | rfl | h | rfl | h | rfl | h | rfl | h
  · exact .inr (val_mem_hex (List.mem_of_mem_take h))
  · exact .inl hdash
  · exact .inr (val_mem_hex (List.mem_of_mem_drop (List.mem_of_mem_take h)))
  · exact .inl hdash
  · exact .inr (val_mem_hex (List.mem_of_mem_drop (List.mem_of_mem_take h)))
  · exact .inl hdash
  · exact .inr (val_mem_hex (List.mem_of_mem_drop (List.mem_of_mem_take h)))
  · exact .inl hdash
  · exact .inr (val_mem_hex (List.mem_of_mem_drop h))

/-- The digits without the dashes. -/
theorem filter_str (u : Uuid) : u.str.filter (· ≠ char '-') = u.hex := by
  have hkeep : ∀ s : PyStr, (∀ c ∈ s, c ∈ u.hex) → s.filter (· ≠ char '-') = s := by
    intro s hs
    rw [List.filter_eq_self]
    intro c hc
    refine decide_eq_true fun heq => ?_
    have hval := val_mem_hex (hs c hc)
    rw [heq, char_val] at hval
    revert hval
    decide
  simp only [str, List.filter_append, List.filter_cons, ne_eq, not_true_eq_false, decide_false,
    Bool.false_eq_true, if_false]
  have h₁ := hkeep (u.hex.take 8) fun c hc => List.mem_of_mem_take hc
  have h₂ := hkeep ((u.hex.drop 8).take 4) fun c hc => List.mem_of_mem_drop (List.mem_of_mem_take hc)
  have h₃ := hkeep ((u.hex.drop 12).take 4) fun c hc =>
    List.mem_of_mem_drop (List.mem_of_mem_take hc)
  have h₄ := hkeep ((u.hex.drop 16).take 4) fun c hc =>
    List.mem_of_mem_drop (List.mem_of_mem_take hc)
  have h₅ := hkeep (u.hex.drop 20) fun c hc => List.mem_of_mem_drop hc
  simp only [ne_eq] at h₁ h₂ h₃ h₄ h₅
  rw [h₁, h₂, h₃, h₄, h₅]
  have hjoin : ∀ (k : ℕ) (s : PyStr), s.take k ++ s.drop k = s := List.take_append_drop
  have hdrop : ∀ j k : ℕ, (u.hex.drop j).drop k = u.hex.drop (j + k) := fun j k => by
    rw [List.drop_drop]
  rw [← hdrop 16 4, hjoin, ← hdrop 12 4, hjoin, ← hdrop 8 4, hjoin, hjoin]

theorem remove_eq_self {p : CodePoint} {pattern s : PyStr} (h : p ∉ s) :
    remove (p :: pattern) s = s := by
  unfold remove
  induction s with
  | nil => rfl
  | cons c s ih =>
    rw [List.mem_cons, not_or] at h
    rw [removeFrom, if_neg, ih h.2]
    simp [List.isPrefixOf, h.1]

theorem unsignedHex?_hex (u : Uuid) : unsignedHex? u.hex = some u.val := by
  have hlower : ∀ c : Char, 0x66 < c.toNat → u.hex.take 2 ≠ [char '0', char c] := by
    intro c hc heq
    have hmem : char c ∈ u.hex.take 2 := by
      rw [heq]
      exact List.mem_cons_of_mem _ List.mem_cons_self
    have hval := val_mem_hex (List.mem_of_mem_take hmem)
    rw [char_val] at hval
    omega
  have hupper : u.hex.take 2 ≠ ofString "0X" := by
    intro heq
    have hmem : char 'X' ∈ u.hex.take 2 := by
      rw [heq]
      exact List.mem_cons_of_mem _ List.mem_cons_self
    have hval := val_mem_hex (List.mem_of_mem_take hmem)
    rw [char_val] at hval
    revert hval
    decide
  have hdrop : dropHexPrefix u.hex = u.hex :=
    if_neg (not_or.2 ⟨hlower 'x' (by decide), hupper⟩)
  have hgroups : digitGroups? hexDigit? u.hex = some (fixedDigits 16 32 u.val) := by
    refine digitGroups?_digits (fun d => hexDigit?_hexDigit) (by decide) ?_ fun d =>
      lt_of_mem_fixedDigits (by norm_num)
    rw [ne_eq, ← List.length_eq_zero_iff, length_fixedDigits]
    decide
  have hlt : u.val < 16 ^ 32 := lt_of_lt_of_eq u.isLt (by norm_num)
  rw [unsignedHex?, hdrop, hgroups, Option.map_some, digitsValue_fixedDigits,
    Nat.mod_eq_of_lt hlt]

theorem intHex?_hex (u : Uuid) : intHex? u.hex = some (u.val : ℤ) := by
  have hne : u.hex ≠ [] := by
    rw [ne_eq, ← List.length_eq_zero_iff, length_hex]
    decide
  obtain ⟨c, s, hcons⟩ := List.exists_cons_of_ne_nil hne
  have hread := unsignedHex?_hex u
  rw [hcons] at hread
  rw [intHex?, hcons]
  refine signed?_eq (fun d hd => ?_) hread
  have := val_mem_hex (hcons ▸ hd)
  omega

/-- **The constructor reads back what `str` writes.** -/
theorem uuid?_str (u : Uuid) : uuid? u.str = some u := by
  have hval : ∀ c ∈ u.str, 0x2D ≤ c.val ∧ c.val ≤ 0x66 := by
    intro c hc
    have := val_mem_str hc
    omega
  have hu : char 'u' ∉ u.str := by
    intro hmem
    have := hval _ hmem
    rw [char_val] at this
    revert this
    decide
  have hbrace : ∀ c ∈ u.str, isBrace c = false := by
    intro c hc
    have := hval c hc
    simp only [isBrace, decide_eq_false_iff_not]
    omega
  have hremove : remove (ofString "uuid:") (remove (ofString "urn:") u.str) = u.str := by
    have hurn : remove (ofString "urn:") u.str = u.str := remove_eq_self hu
    rw [hurn]
    exact remove_eq_self hu
  have hstrip : stripBraces u.str = u.str := by
    rw [stripBraces, dropWhile_eq_self hbrace, List.rdropWhile_eq_self_iff]
    intro hs
    simp [hbrace _ (List.getLast_mem hs)]
  have hdigits : digitsPart u.str = u.hex := by rw [digitsPart, hremove, hstrip, filter_str]
  have hlt : (u.val : ℤ) < 2 ^ 128 := by exact_mod_cast u.isLt
  rw [uuid?, hdigits, if_pos (length_hex u), intHex?_hex, Option.bind_some, ofInt?,
    dif_pos ⟨by omega, hlt⟩]
  exact congrArg some (Fin.ext (Int.toNat_natCast _))

end Uuid

end Foundations
