import Mathlib.Algebra.BigOperators.Group.List.Basic
import Mathlib.Algebra.Order.Ring.Nat
import Mathlib.Data.List.Count
import Mathlib.Data.List.Induction

/-!
# Counting into a dictionary

The loop `d[a] = d.get(a, 0) + 1` over a list. `counts_tally`: it ends with a dictionary that has
each element of the list once, with the number of its occurrences.
-/

namespace Foundations

variable {α : Type*} [DecidableEq α]

/-- One more of an element. A new key comes last. -/
def increment : List (α × ℕ) → α → List (α × ℕ)
  | [], a => [(a, 1)]
  | (b, n) :: d, a => if b = a then (b, n + 1) :: d else (b, n) :: increment d a

/-- The number of occurrences of each element. -/
def tally (l : List α) : List (α × ℕ) := l.foldl increment []

/-- The dictionary has the elements of the list, with their numbers. -/
structure Counts (d : List (α × ℕ)) (l : List α) : Prop where
  nodup : (d.map Prod.fst).Nodup
  mem_iff {a : α} {n : ℕ} : (a, n) ∈ d ↔ 0 < n ∧ l.count a = n

theorem mem_keys_increment {d : List (α × ℕ)} {a b : α} :
    b ∈ (increment d a).map Prod.fst ↔ b = a ∨ b ∈ d.map Prod.fst := by
  induction d with
  | nil => simp [increment]
  | cons e d ih =>
    obtain ⟨c, n⟩ := e
    simp only [increment]
    split
    · next h =>
      subst h
      simp
    · simp only [List.map_cons, List.mem_cons, ih]
      exact or_left_comm

theorem nodup_increment {d : List (α × ℕ)} (h : (d.map Prod.fst).Nodup) (a : α) :
    ((increment d a).map Prod.fst).Nodup := by
  induction d with
  | nil => simp [increment]
  | cons e d ih =>
    obtain ⟨c, n⟩ := e
    rw [List.map_cons, List.nodup_cons] at h
    simp only [increment]
    split
    · exact List.nodup_cons.2 h
    · next hne =>
      refine List.nodup_cons.2 ⟨?_, ih h.2⟩
      rw [mem_keys_increment, not_or]
      exact ⟨hne, h.1⟩

/-- What is counted under a key after one more of an element. -/
theorem mem_increment_iff {d : List (α × ℕ)} (h : (d.map Prod.fst).Nodup) {a b : α} {n : ℕ} :
    (b, n) ∈ increment d a ↔ if b = a then (∃ m, (a, m) ∈ d ∧ n = m + 1) ∨
      (a ∉ d.map Prod.fst ∧ n = 1) else (b, n) ∈ d := by
  induction d with
  | nil => by_cases hb : b = a <;> simp [increment, hb]
  | cons e d ih =>
    obtain ⟨c, k⟩ := e
    rw [List.map_cons, List.nodup_cons] at h
    simp only [increment]
    by_cases hca : c = a
    · subst hca
      have hkey : ∀ m, (c, m) ∉ d := fun m hm => h.1 (List.mem_map.2 ⟨_, hm, rfl⟩)
      by_cases hb : b = c <;> simp [hb, hkey]
    · rw [if_neg hca, List.mem_cons, ih h.2]
      by_cases hb : b = a
      · subst hb
        simp [Ne.symm hca]
      · simp [hb]

theorem Counts.increment {d : List (α × ℕ)} {l : List α} (h : Counts d l) (a : α) :
    Counts (increment d a) (l ++ [a]) := by
  refine ⟨nodup_increment h.nodup a, fun {b n} => ?_⟩
  rw [mem_increment_iff h.nodup, List.count_append]
  by_cases hb : b = a
  · subst hb
    rw [if_pos rfl, List.count_singleton_self]
    constructor
    · rintro (⟨m, hm, rfl⟩ | ⟨hnot, rfl⟩)
      · exact ⟨Nat.succ_pos m, by rw [(h.mem_iff.1 hm).2]⟩
      · have hzero : l.count b = 0 := by
          by_contra hne
          exact hnot (List.mem_map.2 ⟨_, h.mem_iff.2 ⟨Nat.pos_of_ne_zero hne, rfl⟩, rfl⟩)
        exact ⟨Nat.one_pos, by rw [hzero]⟩
    · rintro ⟨-, rfl⟩
      by_cases hzero : l.count b = 0
      · refine .inr ⟨fun hmem => ?_, by rw [hzero]⟩
        obtain ⟨⟨_, m⟩, hm, rfl⟩ := List.mem_map.1 hmem
        obtain ⟨hpos, hcount⟩ := h.mem_iff.1 hm
        exact (Nat.ne_of_lt hpos (hzero.symm.trans hcount)).elim
      · exact .inl ⟨_, h.mem_iff.2 ⟨Nat.pos_of_ne_zero hzero, rfl⟩, rfl⟩
  · rw [if_neg hb, h.mem_iff, List.count_singleton, if_neg (by simpa using Ne.symm hb),
      Nat.add_zero]

/-- **The loop counts.** -/
theorem counts_tally (l : List α) : Counts (tally l) l := by
  induction l using List.reverseRecOn with
  | nil => exact ⟨List.nodup_nil, by simp [tally]; omega⟩
  | append_singleton l a ih =>
    rw [tally, List.foldl_append]
    exact ih.increment a

theorem sum_increment (d : List (α × ℕ)) (a : α) :
    ((increment d a).map Prod.snd).sum = (d.map Prod.snd).sum + 1 := by
  induction d with
  | nil => rfl
  | cons e d ih =>
    obtain ⟨b, n⟩ := e
    simp only [increment]
    split
    · simp only [List.map_cons, List.sum_cons]
      omega
    · simp only [List.map_cons, List.sum_cons, ih]
      omega

/-- Every element is counted once. -/
theorem sum_tally (l : List α) : ((tally l).map Prod.snd).sum = l.length := by
  induction l using List.reverseRecOn with
  | nil => rfl
  | append_singleton l a ih =>
    rw [tally, List.foldl_append, List.length_append]
    exact (sum_increment _ a).trans (congrArg (· + 1) ih)

/-- The occurrences of what some elements give. -/
theorem count_filterMap {β : Type*} (f : β → Option α) (l : List β) (a : α) :
    (l.filterMap f).count a = l.countP fun b => f b = some a := by
  rw [List.count, List.countP_filterMap]
  refine List.countP_congr fun b _ => ?_
  cases f b <;> simp

end Foundations
