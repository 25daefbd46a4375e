import Hookit.Foundations.Keyset

/-!
# The newest rows

Keeping the `n` newest rows of a growing collection, by their keys in any linear order. `newer` is
the number of rows above a key; the rows that are kept are those with fewer than `n` newer ones
(`newer_kept`: from them one still sees whether a key has `n` above it).

A row is added by someone who saw part of the collection and drops what has `n` newer rows in what
was seen. `mem_pruned_iff` says when that leaves the `n` newest again: what was seen contains all
that is kept, or there was room, or the new row is dropped itself. `not_pruned` is the converse.
-/

namespace Foundations.Newest

universe u

variable {ρ κ : Type u} [LinearOrder κ] (key : ρ → κ)

/-- The number of rows above a key. -/
def newer (l : List ρ) (k : κ) : ℕ := (l.filter fun r => k < key r).length

variable {key} {l l' : List ρ} {k k' : κ} {r : ρ} {n : ℕ}

theorem newer_le_of_subset (hl : l.Nodup) (h : l ⊆ l') (k : κ) : newer key l k ≤ newer key l' k := by
  refine (List.subperm_of_subset (hl.filter _) fun r hr => ?_).length_le
  obtain ⟨hr, hk⟩ := List.mem_filter.1 hr
  exact List.mem_filter.2 ⟨h hr, hk⟩

theorem newer_anti (h : k ≤ k') (l : List ρ) : newer key l k' ≤ newer key l k := by
  refine (List.monotone_filter_right l fun (r : ρ) hr => ?_).length_le
  exact decide_eq_true (h.trans_lt (of_decide_eq_true hr))

theorem newer_perm (h : l.Perm l') (k : κ) : newer key l k = newer key l' k :=
  (h.filter _).length_eq

theorem newer_concat (l : List ρ) (a : ρ) (k : κ) :
    newer key (l ++ [a]) k = newer key l k + if k < key a then 1 else 0 := by
  unfold newer
  rw [List.filter_append, List.length_append]
  by_cases h : k < key a <;> simp [h]

/-- A row is not newer than itself. -/
theorem newer_lt_length (hr : r ∈ l) : newer key l (key r) < l.length := by
  refine lt_of_le_of_ne (List.length_filter_le _ _) fun heq => ?_
  have := List.length_filter_eq_length_iff.1 heq r hr
  exact lt_irrefl _ (of_decide_eq_true this)

/-- One more row is at or above the key of a row that is not the new one's. -/
theorem newer_lt_of_lt (hr : r ∈ l) (h : k < key r) : newer key l (key r) < newer key l k := by
  have hmem : r ∈ l.filter fun r => k < key r := List.mem_filter.2 ⟨hr, decide_eq_true h⟩
  refine lt_of_le_of_lt ?_ (@newer_lt_length ρ κ _ key _ _ hmem)
  unfold newer
  rw [List.filter_filter]
  refine (List.monotone_filter_right l fun r' hr' => ?_).length_le
  have hlt := of_decide_eq_true hr'
  simp [hlt, h.trans hlt]

section Decreasing

variable (hl : (l.map key).Pairwise (· > ·))
include hl

theorem nodup_of_decreasing : l.Nodup :=
  List.Nodup.of_map key (hl.imp fun h => ne_of_gt h)

/-- **The first `n` of a decreasing list** are the rows with fewer than `n` newer ones. -/
theorem mem_take_iff (hr : r ∈ l) : r ∈ l.take n ↔ newer key l (key r) < n := by
  rw [newer, ← not_le, ← Keyset.mem_drop_iff hl hr]
  have hdisjoint := List.disjoint_take_drop (nodup_of_decreasing hl) (le_refl n)
  refine ⟨fun htake hdrop => hdisjoint htake hdrop, fun hdrop => ?_⟩
  rw [← List.take_append_drop n l, List.mem_append] at hr
  exact hr.resolve_right hdrop

theorem newer_take (n : ℕ) (k : κ) : newer key (l.take n) k = min n (newer key l k) := by
  induction l generalizing n with
  | nil => simp [newer]
  | cons a l ih =>
    rw [List.map_cons, List.pairwise_cons] at hl
    obtain ⟨hhead, htail⟩ := hl
    cases n with
    | zero => simp [newer]
    | succ n =>
      by_cases hk : k < key a
      · have h := ih htail n
        unfold newer at h ⊢
        rw [List.take_succ_cons, List.filter_cons_of_pos (by simpa using hk),
          List.filter_cons_of_pos (by simpa using hk), List.length_cons, List.length_cons, h]
        omega
      · have hnone : newer key (a :: l) k = 0 := by
          refine List.length_eq_zero_iff.2 (List.filter_eq_nil_iff.2 fun r hr hlt => ?_)
          have hlt := of_decide_eq_true hlt
          rcases List.mem_cons.1 hr with rfl | hr
          · exact hk hlt
          · exact hk (hlt.trans (hhead _ (List.mem_map_of_mem hr)))
        have hzero : newer key ((a :: l).take (n + 1)) k ≤ newer key (a :: l) k :=
          ((List.take_sublist _ _).filter _).length_le
        omega

end Decreasing

/-! ## What is kept -/

/-- The rows `kept` are those of `l` with fewer than `n` newer ones. -/
def Keeps (key : ρ → κ) (n : ℕ) (l kept : List ρ) : Prop :=
  kept.Nodup ∧ ∀ r, r ∈ kept ↔ r ∈ l ∧ newer key l (key r) < n

variable {kept : List ρ}

/-- The newest rows are the first `n` in decreasing order. -/
theorem Keeps.perm_take (hl : (l.map key).Nodup) (h : Keeps key n l kept) :
    kept.Perm ((Keyset.below key l none).take n) := by
  have hsorted := Keyset.below_decreasing hl none
  have hperm : (Keyset.below key l none).Perm l := Keyset.below_perm l
  refine (List.perm_ext_iff_of_nodup h.1
    ((nodup_of_decreasing hsorted).sublist (List.take_sublist _ _))).2 fun r => ?_
  rw [h.2]
  constructor
  · rintro ⟨hr, hlt⟩
    rw [mem_take_iff hsorted (hperm.mem_iff.2 hr), newer_perm hperm]
    exact hlt
  · intro hr
    have hmem := List.mem_of_mem_take hr
    rw [mem_take_iff hsorted hmem, newer_perm hperm] at hr
    exact ⟨hperm.mem_iff.1 hmem, hr⟩

/-- In decreasing order they are those first `n`. -/
theorem Keeps.eq_take (hl : (l.map key).Nodup) (h : Keeps key n l kept)
    (hkept : (kept.map key).Pairwise (· > ·)) : kept = (Keyset.below key l none).take n := by
  have hkept' : kept.Pairwise fun a b => key b < key a := List.pairwise_map.1 hkept
  have hsorted : (Keyset.below key l none).Pairwise fun a b => key b < key a :=
    List.pairwise_map.1 (Keyset.below_decreasing hl none)
  exact (h.perm_take hl).eq_of_pairwise (fun a b _ _ hab hba => absurd hba (lt_asymm hab))
    hkept' (hsorted.sublist (List.take_sublist _ _))

theorem Keeps.length_le (hl : (l.map key).Nodup) (h : Keeps key n l kept) : kept.length ≤ n := by
  rw [(h.perm_take hl).length_eq]
  exact List.length_take_le _ _

/-- A key has as many kept rows above it as it has rows, up to `n`. -/
theorem Keeps.newer_kept (hl : (l.map key).Nodup) (h : Keeps key n l kept) (k : κ) :
    newer key kept k = min n (newer key l k) := by
  rw [newer_perm (h.perm_take hl), newer_take (Keyset.below_decreasing hl none),
    newer_perm (Keyset.below_perm l)]

/-! ## One more row -/

section Prune

variable {a : ρ} {seen : List ρ} (hl : (l.map key).Nodup) (ha : key a ∉ l.map key)
  (hkept : Keeps key n l kept) (hseen : (seen.map key).Pairwise (· > ·)) (hmem : a ∈ seen)
  (hsub : ∀ r ∈ seen, r = a ∨ r ∈ l)

include hseen hsub in
theorem newer_seen_le (k : κ) : newer key seen k ≤ newer key (l ++ [a]) k :=
  newer_le_of_subset (nodup_of_decreasing hseen)
    (fun r hr => by simpa [or_comm] using hsub r hr) k

include hl ha hkept hseen hmem in
/-- If nothing that is kept went unseen, what is not stale is new enough. -/
theorem newer_lt_of_seen (hall : ∀ x ∈ kept, x ∈ seen) (hr : r ∈ kept ∨ r = a)
    (hnot : r ∉ seen.drop n) : newer key (l ++ [a]) (key r) < n := by
  have hnew : a ∉ l := fun h => ha (List.mem_map_of_mem h)
  have hrseen : r ∈ seen := by
    rcases hr with hr | rfl
    · exact hall r hr
    · exact hmem
  have hlt : newer key seen (key r) < n := by
    rw [Keyset.mem_drop_iff hseen hrseen, not_le] at hnot
    exact hnot
  -- what is kept, with the new row, was seen
  have hle : newer key (kept ++ [a]) (key r) ≤ newer key seen (key r) := by
    refine newer_le_of_subset ?_ (fun x hx => ?_) _
    · refine List.nodup_append.2 ⟨hkept.1, List.nodup_singleton a, fun x hx y hy hxy => ?_⟩
      obtain rfl := List.mem_singleton.1 hy
      exact hnew (hxy ▸ ((hkept.2 x).1 hx).1)
    · rcases List.mem_append.1 hx with hx | hx
      · exact hall x hx
      · exact List.mem_singleton.1 hx ▸ hmem
  rw [newer_concat, hkept.newer_kept hl] at hle
  have := @newer_concat ρ κ _ key l a (key r)
  omega

include hl hkept in
/-- If there is room, every row is new enough. -/
theorem newer_lt_of_room (hroom : kept.length < n) (hr : r ∈ l ++ [a]) :
    newer key (l ++ [a]) (key r) < n := by
  have hlength : kept.length = min n l.length := by
    rw [(hkept.perm_take hl).length_eq, List.length_take, (Keyset.below_perm l).length_eq]
  have := @newer_lt_length ρ κ _ key _ _ hr
  rw [List.length_append, List.length_singleton] at this
  omega

include hkept hseen hmem hsub in
/-- If the new row is stale, it is below whatever is kept. -/
theorem newer_lt_of_stale (hstale : a ∈ seen.drop n) (hr : r ∈ kept) :
    newer key (l ++ [a]) (key r) < n := by
  obtain ⟨-, hrlt⟩ := (hkept.2 r).1 hr
  have hna : n ≤ newer key l (key a) := by
    have h₁ := (Keyset.mem_drop_iff hseen hmem).1 hstale
    have h₂ := newer_seen_le hseen hsub (key a)
    rw [newer_concat, if_neg (lt_irrefl _)] at h₂
    exact h₁.trans h₂
  have hnlt : ¬ key r < key a := fun hlt => by
    have : newer key l (key a) ≤ newer key l (key r) := newer_anti hlt.le l
    omega
  rw [newer_concat, if_neg hnlt]
  exact hrlt

include hl ha hkept hseen hmem hsub in
/-- **Dropping what is stale keeps the newest**, if nothing that is kept went unseen, or there was
room, or the new row is stale. -/
theorem mem_pruned_iff
    (hcond : (∀ r ∈ kept, r ∈ seen) ∨ kept.length < n ∨ a ∈ seen.drop n) (r : ρ) :
    (r ∈ kept ∨ r = a) ∧ r ∉ seen.drop n ↔
      r ∈ l ++ [a] ∧ newer key (l ++ [a]) (key r) < n := by
  have hadd := @newer_concat ρ κ _ key l a (key r)
  constructor
  · rintro ⟨hr, hnot⟩
    have hin : r ∈ l ++ [a] := by
      rcases hr with hr | rfl
      · exact List.mem_append_left _ ((hkept.2 r).1 hr).1
      · exact List.mem_append_right _ (List.mem_singleton_self _)
    refine ⟨hin, ?_⟩
    rcases hcond with hall | hroom | hstale
    · exact newer_lt_of_seen hl ha hkept hseen hmem hall hr hnot
    · exact newer_lt_of_room hl hkept hroom hin
    · refine newer_lt_of_stale hkept hseen hmem hsub hstale (hr.resolve_right ?_)
      rintro rfl
      exact hnot hstale
  · rintro ⟨hr, hlt⟩
    refine ⟨?_, fun hdrop => ?_⟩
    · rcases List.mem_append.1 hr with hr | hr
      · exact .inl ((hkept.2 r).2 ⟨hr, by omega⟩)
      · exact .inr (List.mem_singleton.1 hr)
    · have h₁ := (Keyset.mem_drop_iff hseen (List.mem_of_mem_drop hdrop)).1 hdrop
      have h₂ := newer_seen_le hseen hsub (key r)
      unfold newer at h₂ hlt
      omega

include hl ha hkept hseen hmem hsub in
/-- Otherwise one row too many is left. -/
theorem not_pruned (hunseen : ∃ r ∈ kept, r ∉ seen) (hfull : n ≤ kept.length)
    (hfresh : a ∉ seen.drop n) :
    ¬ ∀ r, (r ∈ kept ∨ r = a) ∧ r ∉ seen.drop n ↔
      r ∈ l ++ [a] ∧ newer key (l ++ [a]) (key r) < n := by
  intro hall
  have hnew : a ∉ l := fun h => ha (List.mem_map_of_mem h)
  have hadd := @newer_concat ρ κ _ key l a
  obtain ⟨x, hx, hxseen⟩ := hunseen
  obtain ⟨hxl, hxlt⟩ := (hkept.2 x).1 hx
  -- nothing that is kept is dropped
  have hstay : ∀ r ∈ kept, r ∉ seen.drop n := by
    intro r hr hdrop
    obtain ⟨hrl, hrlt⟩ := (hkept.2 r).1 hr
    have hrseen := List.mem_of_mem_drop hdrop
    have hn : n ≤ newer key seen (key r) := (Keyset.mem_drop_iff hseen hrseen).1 hdrop
    have hr' := hadd (key r)
    rcases lt_or_ge (key r) (key x) with hlt | hge
    · have hle : newer key (x :: seen) (key r) ≤ newer key (l ++ [a]) (key r) := by
        refine newer_le_of_subset (List.nodup_cons.2 ⟨hxseen, nodup_of_decreasing hseen⟩)
          (List.cons_subset.2 ⟨List.mem_append_left _ hxl, fun y hy => ?_⟩) _
        simpa [or_comm] using hsub y hy
      rw [newer, List.filter_cons_of_pos (by simpa using hlt), List.length_cons] at hle
      unfold newer at hle hn hr' hrlt
      split at hr' <;> omega
    · have hne : key x ≠ key r := fun heq =>
        hxseen (List.inj_on_of_nodup_map hl hxl hrl heq ▸ hrseen)
      have := newer_lt_of_lt hrl (lt_of_le_of_ne hge hne)
      have hle := newer_seen_le hseen hsub (key r)
      split at hr' <;> omega
  have hkeys : ((l ++ [a]).map key).Nodup := by
    rw [List.map_append, List.nodup_append]
    refine ⟨hl, List.nodup_singleton _, fun k hk k' hk' heq => ?_⟩
    obtain rfl := List.mem_singleton.1 hk'
    exact ha (heq ▸ hk)
  have hnext : Keeps key n (l ++ [a]) (kept ++ [a]) := by
    refine ⟨List.nodup_append.2 ⟨hkept.1, List.nodup_singleton a, fun y hy z hz hyz => ?_⟩,
      fun r => ?_⟩
    · obtain rfl := List.mem_singleton.1 hz
      exact hnew (hyz ▸ ((hkept.2 y).1 hy).1)
    · rw [← hall r, List.mem_append, List.mem_singleton, iff_self_and]
      rintro (hr | rfl)
      · exact hstay r hr
      · exact hfresh
  have := hnext.length_le hkeys
  rw [List.length_append, List.length_singleton] at this
  omega

end Prune

end Foundations.Newest
