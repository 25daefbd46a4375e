import Mathlib.Data.List.Count

/-!
# Lists

Facts about lists that are not in the library: a property of every element together with what
comes before it, a map that may have no result, and a filter that leaves one element.
-/

namespace Foundations

variable {α β : Type*}

/-- A property of every element of a list together with the elements before it. -/
theorem forall_split_cons {P : List α → α → Prop} {x : α} {l : List α} :
    (∀ before y after, x :: l = before ++ y :: after → P before y) ↔
      P [] x ∧ ∀ before y after, l = before ++ y :: after → P (x :: before) y := by
  constructor
  · intro h
    refine ⟨h [] x l rfl, fun before y after hl => h (x :: before) y after ?_⟩
    rw [hl, List.cons_append]
  · rintro ⟨hx, hl⟩ before y after h
    cases before with
    | nil =>
      obtain ⟨rfl, -⟩ := List.cons.inj h
      exact hx
    | cons z before =>
      obtain ⟨rfl, h'⟩ := List.cons.inj h
      exact hl before y after h'

/-- The one element with a property. -/
theorem filter_eq_singleton [DecidableEq α] {l : List α} {f : α → Bool} {a : α}
    (hcount : l.count a = 1) (hf : ∀ b ∈ l, f b = true ↔ b = a) : l.filter f = [a] := by
  have hlength : (l.filter f).length = 1 := by
    rw [← List.countP_eq_length_filter, ← hcount, List.count]
    refine List.countP_congr fun b hb => ?_
    rw [hf b hb, beq_iff_eq]
  obtain ⟨b, hb⟩ := List.length_eq_one_iff.1 hlength
  have hmem : b ∈ l.filter f := hb ▸ List.mem_singleton_self b
  obtain ⟨hmem, hfb⟩ := List.mem_filter.1 hmem
  rw [hb, (hf b hmem).1 hfb]

section MapM

universe u

variable {α β : Type u} {f g : α → Option β} {l : List α}

theorem mapM_congr_of_mem (h : ∀ a ∈ l, f a = g a) : l.mapM f = l.mapM g := by
  induction l with
  | nil => rfl
  | cons a l ih =>
    rw [List.mapM_cons, List.mapM_cons, h a List.mem_cons_self,
      ih fun b hb => h b (List.mem_cons_of_mem a hb)]

/-- **A map whose every element has a result** has one, and the results have what they have. -/
theorem exists_mapM {P : β → Prop} (h : ∀ a ∈ l, ∃ b, f a = some b ∧ P b) :
    ∃ r, l.mapM f = some r ∧ ∀ b ∈ r, P b := by
  induction l with
  | nil => exact ⟨[], rfl, by simp⟩
  | cons a l ih =>
    obtain ⟨b, hb, hPb⟩ := h a List.mem_cons_self
    obtain ⟨r, hr, hPr⟩ := ih fun c hc => h c (List.mem_cons_of_mem a hc)
    refine ⟨b :: r, ?_, List.forall_mem_cons.2 ⟨hPb, hPr⟩⟩
    rw [List.mapM_cons, hb, hr]
    rfl

end MapM

end Foundations
