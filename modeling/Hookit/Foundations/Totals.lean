import Hookit.Foundations.Rows
import Mathlib.Algebra.Order.BigOperators.Group.List
import Mathlib.Algebra.Order.Ring.Nat
import Mathlib.Data.List.Perm.Subperm

/-!
# Totals of a table

What the rows of a table add up to, and how statements change it.
-/

namespace Foundations.Rows

variable {κ ρ : Type*} {T : Rows κ ρ} {w : ρ → ℕ}

/-- What the rows of a table add up to. -/
def total (w : ρ → ℕ) (T : Rows κ ρ) : ℕ := (T.entries.map fun e => w e.2).sum

theorem total_filter_le (p : κ → ρ → Bool) : (T.filter p).total w ≤ T.total w :=
  (List.Sublist.map _ List.filter_sublist).sum_le_sum fun _ _ => Nat.zero_le _

theorem total_modify (f : κ → ρ → ρ) :
    (T.modify f).total w = (T.entries.map fun e => w (f e.1 e.2)).sum := by
  rw [total, modify, List.map_map]
  rfl

/-- Changing rows lowers the total by one for each of the entries that are picked, if it does so
entry by entry. -/
theorem length_filter_add_sum_le {p : κ × ρ → Bool} {f : κ → ρ → ρ} {l : List (κ × ρ)}
    (hstep : ∀ e ∈ l, (if p e then 1 else 0) + w (f e.1 e.2) ≤ w e.2) :
    (l.filter p).length + (l.map fun e => w (f e.1 e.2)).sum ≤ (l.map fun e => w e.2).sum := by
  induction l with
  | nil => simp
  | cons e l ih =>
    have hfirst := hstep e (by simp)
    have hrest := ih fun e he => hstep e (List.mem_cons_of_mem _ he)
    rw [List.filter_cons]
    simp only [List.map_cons, List.sum_cons]
    split at hfirst
    · next hp =>
      rw [if_pos hp, List.length_cons]
      omega
    · next hp =>
      rw [if_neg hp]
      omega

variable [DecidableEq κ]

theorem total_eq_zero_iff : T.total w = 0 ↔ ∀ k v, T.get? k = some v → w v = 0 := by
  rw [total, List.sum_eq_zero_iff_forall_eq_nat]
  simp only [List.mem_map, get?_eq_some_iff]
  constructor
  · intro h k v hmem
    exact h _ ⟨(k, v), hmem, rfl⟩
  · rintro h _ ⟨⟨k, v⟩, hmem, rfl⟩
    exact h k v hmem

theorem total_insertAll {l : List (κ × ρ)} (h : T.Unused l) :
    (T.insertAll l).total w = T.total w + (l.map fun e => w e.2).sum := by
  rw [total, entries_insertAll h, List.map_append, List.sum_append, total]

/-- **Changing rows** lowers the total by one for each key of a list, if it does so row by row. -/
theorem length_add_total_modify_le {f : κ → ρ → ρ} {ks : List κ} (hks : ks.Nodup)
    (hmem : ∀ k ∈ ks, T.get? k ≠ none)
    (hstep : ∀ k v, T.get? k = some v → (if k ∈ ks then 1 else 0) + w (f k v) ≤ w v) :
    ks.length + (T.modify f).total w ≤ T.total w := by
  have hsub : ks ⊆ (T.entries.filter fun e => e.1 ∈ ks).map Prod.fst := by
    intro k hk
    obtain ⟨v, hv⟩ := Option.ne_none_iff_exists'.1 (hmem k hk)
    refine List.mem_map.2 ⟨(k, v), List.mem_filter.2 ⟨get?_eq_some_iff.1 hv, ?_⟩, rfl⟩
    exact decide_eq_true hk
  have hcount := (List.subperm_of_subset hks hsub).length_le
  rw [List.length_map] at hcount
  have hsum := length_filter_add_sum_le (w := w) (p := fun e => decide (e.1 ∈ ks)) (f := f)
    (l := T.entries) fun e he => by simpa using hstep e.1 e.2 (get?_eq_some_iff.2 he)
  rw [total_modify, total]
  omega

/-- Changing the row under one key. -/
theorem sum_modifyAt_le {k : κ} {f : ρ → ρ} {c : ℕ} {l : List (κ × ρ)}
    (hnodup : (l.map Prod.fst).Nodup) (h : ∀ v, (k, v) ∈ l → w (f v) ≤ w v + c) :
    (l.map fun e => w (if e.1 = k then f e.2 else e.2)).sum ≤ (l.map fun e => w e.2).sum + c := by
  induction l with
  | nil => simp
  | cons e l ih =>
    rw [List.map_cons, List.nodup_cons] at hnodup
    simp only [List.map_cons, List.sum_cons]
    by_cases hk : e.1 = k
    · -- no other row is under the key
      have hrest : (l.map fun e => w (if e.1 = k then f e.2 else e.2)) = l.map fun e => w e.2 := by
        refine List.map_congr_left fun e' he' => ?_
        rw [if_neg]
        rintro rfl
        exact hnodup.1 (hk ▸ List.mem_map_of_mem he')
      have hhead := h e.2 (by simp [← hk])
      rw [hrest, if_pos hk]
      omega
    · have hrest := ih hnodup.2 fun v hv => h v (List.mem_cons_of_mem _ hv)
      rw [if_neg hk]
      omega

theorem total_modifyAt_le {k : κ} {f : ρ → ρ} {c : ℕ}
    (h : ∀ v, T.get? k = some v → w (f v) ≤ w v + c) :
    (T.modifyAt k f).total w ≤ T.total w + c := by
  rw [modifyAt, total_modify, total]
  exact sum_modifyAt_le T.nodup fun v hv => h v (get?_eq_some_iff.2 hv)

/-- The elements of a list that refer to one of some keys, key by key. -/
theorem length_filter_mem {α : Type*} (l : List α) (ref : α → κ) {ks : List κ} (hks : ks.Nodup) :
    (l.filter fun a => ref a ∈ ks).length =
      (ks.map fun k => (l.filter fun a => ref a = k).length).sum := by
  induction ks with
  | nil => simp
  | cons k ks ih =>
    rw [List.nodup_cons] at hks
    rw [List.map_cons, List.sum_cons, ← ih hks.2]
    simp only [← List.countP_eq_length_filter]
    clear ih
    induction l with
    | nil => rfl
    | cons a l ihl =>
      simp only [List.countP_cons, List.mem_cons] at ihl ⊢
      have hone : (if decide (ref a = k ∨ ref a ∈ ks) = true then 1 else 0) =
          (if decide (ref a = k) = true then 1 else 0) +
            if decide (ref a ∈ ks) = true then 1 else 0 := by
        by_cases hk : ref a = k
        · simp [hk, hks.1]
        · simp [hk]
      omega

end Foundations.Rows
