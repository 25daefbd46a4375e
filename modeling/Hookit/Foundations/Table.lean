import Mathlib.Logic.Function.Basic

/-!
# Tables under READ COMMITTED

A table of rows as the transactions of a database at isolation level READ COMMITTED see it: the
latest committed version of each row, and the row locks, each with the version its holder has
written and not yet committed. A version is `none` where the row does not exist, so an
uncommitted insert is a lock on a row that is not committed and an uncommitted delete a lock
with version `none`. Keys are those of the unique index through which the rows are reached.

* `visible t k` is what a statement of transaction `t` reads: its own version, else the
  committed one.
* `free t k` says that `t` may lock row `k` without waiting.
* `write`, `writeAll`, `deleteAll`, `commit` and `rollback` are the effects of statements; the lemmas say
  what each does to the committed rows, to the locks and to what the others see.
* `Statement t T T'` is what the writes of a transaction have in common.
* `Versions T P` says that every version, committed or not, meets `P`.
-/

namespace Foundations

/-- A value of an updated function: the new one, or one of the others. -/
theorem update_apply_eq_iff {ι β : Type*} [DecidableEq ι] {f : ι → β} {i j : ι} {b c : β} :
    Function.update f i b j = c ↔ (j = i ∧ b = c) ∨ (j ≠ i ∧ f j = c) := by
  rcases eq_or_ne j i with rfl | h
  · simp
  · simp [h]

/-- The committed rows, and the row locks with their holders' versions. -/
structure Table (τ κ ρ : Type*) where
  rows : κ → Option ρ
  held : κ → Option (τ × Option ρ)

namespace Table

variable {τ κ ρ : Type*}

/-- No rows and no locks. -/
def empty : Table τ κ ρ := ⟨fun _ => none, fun _ => none⟩

@[simp] theorem empty_rows (k : κ) : (empty : Table τ κ ρ).rows k = none := rfl

@[simp] theorem empty_held (k : κ) : (empty : Table τ κ ρ).held k = none := rfl

/-- Transaction `t` holds the lock of row `k`. -/
def Holds (T : Table τ κ ρ) (t : τ) (k : κ) : Prop := ∃ v, T.held k = some (t, v)

theorem Holds.eq {T : Table τ κ ρ} {t t' : τ} {k : κ} {v : Option ρ} (h : T.Holds t k)
    (h' : T.held k = some (t', v)) : t' = t := by
  obtain ⟨w, hw⟩ := h
  rw [hw] at h'
  exact (congrArg Prod.fst (Option.some.inj h')).symm

variable [DecidableEq τ]

/-- The version of row `k` that a statement of transaction `t` reads. -/
def visible (T : Table τ κ ρ) (t : τ) (k : κ) : Option ρ :=
  match T.held k with
  | some (t', v) => if t' = t then v else T.rows k
  | none => T.rows k

/-- Transaction `t` can lock row `k` without waiting: nobody else holds it. -/
def free (T : Table τ κ ρ) (t : τ) (k : κ) : Bool :=
  match T.held k with
  | some (t', _) => t' = t
  | none => true

/-- Make the versions of transaction `t` the committed ones, and release its locks. -/
def commit (T : Table τ κ ρ) (t : τ) : Table τ κ ρ where
  rows := T.visible t
  held k := (T.held k).filter fun h => h.1 ≠ t

/-- Drop the versions of transaction `t`, and release its locks. -/
def rollback (T : Table τ κ ρ) (t : τ) : Table τ κ ρ where
  rows := T.rows
  held k := (T.held k).filter fun h => h.1 ≠ t

variable {T : Table τ κ ρ} {t t' : τ} {k : κ} {v : Option ρ}

theorem visible_of_held (h : T.held k = some (t, v)) : T.visible t k = v := by
  simp [visible, h]

theorem visible_of_held_ne (h : T.held k = some (t', v)) (hne : t' ≠ t) :
    T.visible t k = T.rows k := by
  simp [visible, h, hne]

theorem visible_of_unheld (h : T.held k = none) : T.visible t k = T.rows k := by
  simp [visible, h]

theorem visible_of_not_holds (h : ¬ T.Holds t k) : T.visible t k = T.rows k := by
  unfold visible
  split
  · rename_i t' v hv
    rw [if_neg]
    rintro rfl
    exact h ⟨v, hv⟩
  · rfl

/-- What a transaction reads is the version it holds, or else the committed one. -/
theorem visible_cases (T : Table τ κ ρ) (t : τ) (k : κ) :
    T.held k = some (t, T.visible t k) ∨ (¬ T.Holds t k ∧ T.visible t k = T.rows k) := by
  by_cases h : T.Holds t k
  · obtain ⟨v, hv⟩ := h
    exact .inl (by rw [visible_of_held hv, hv])
  · exact .inr ⟨h, visible_of_not_holds h⟩

theorem free_iff : T.free t k = true ↔ T.held k = none ∨ T.Holds t k := by
  unfold free Holds
  cases h : T.held k with
  | none => simp
  | some p =>
    obtain ⟨t', v⟩ := p
    simp

theorem commit_held_iff : (T.commit t).held k = some (t', v) ↔
    T.held k = some (t', v) ∧ t' ≠ t := by
  simp [commit, Option.filter_eq_some_iff]

theorem rollback_held_iff : (T.rollback t).held k = some (t', v) ↔
    T.held k = some (t', v) ∧ t' ≠ t := by
  simp [rollback, Option.filter_eq_some_iff]

theorem commit_held_of_ne (h : T.held k = some (t', v)) (hne : t' ≠ t) :
    (T.commit t).held k = some (t', v) :=
  commit_held_iff.2 ⟨h, hne⟩

/-- A commit moves only the rows that the transaction holds. -/
theorem commit_rows_of_not_holds (h : ¬ T.Holds t k) : (T.commit t).rows k = T.rows k :=
  visible_of_not_holds h

theorem visible_rollback (hne : t' ≠ t) : (T.rollback t).visible t' k = T.visible t' k := by
  rcases T.visible_cases t' k with hv | ⟨hn, hv⟩
  · exact visible_of_held (rollback_held_iff.2 ⟨hv, hne⟩)
  · rw [hv]
    exact visible_of_not_holds fun ⟨w, hw⟩ => hn ⟨w, (rollback_held_iff.1 hw).1⟩

/-! ## Writes -/

variable [DecidableEq κ]

/-- Lock row `k` for transaction `t` and write version `v` to it. -/
def write (T : Table τ κ ρ) (t : τ) (k : κ) (v : Option ρ) : Table τ κ ρ :=
  { T with held := Function.update T.held k (some (t, v)) }

/-- Lock the rows `ks` for transaction `t` and apply `f` to the version it sees of each. -/
def writeAll (T : Table τ κ ρ) (t : τ) (ks : List κ) (f : ρ → ρ) : Table τ κ ρ :=
  { T with held := fun k => if k ∈ ks then some (t, (T.visible t k).map f) else T.held k }

/-- Lock those of the rows `ks` that transaction `t` sees, and delete them. -/
def deleteAll (T : Table τ κ ρ) (t : τ) (ks : List κ) : Table τ κ ρ :=
  { T with
    held := fun k => if k ∈ ks ∧ (T.visible t k).isSome = true then some (t, none) else T.held k }

omit [DecidableEq τ] in
@[simp] theorem write_held_self : (T.write t k v).held k = some (t, v) := by
  simp [write]

omit [DecidableEq τ] in
@[simp] theorem write_held_of_ne {k' : κ} (h : k' ≠ k) : (T.write t k v).held k' = T.held k' := by
  simp [write, h]

omit [DecidableEq τ] in
theorem eq_of_write_held {v' : Option ρ} (h : (T.write t k v).held k = some (t, v')) : v = v' :=
  congrArg Prod.snd (Option.some.inj (write_held_self.symm.trans h))

theorem visible_write_of_ne {k' : κ} (h : k' ≠ k) :
    (T.write t k v).visible t' k' = T.visible t' k' := by
  unfold visible
  rw [write_held_of_ne h]
  rfl

theorem writeAll_held_of_mem {ks : List κ} {f : ρ → ρ} (h : k ∈ ks) :
    (T.writeAll t ks f).held k = some (t, (T.visible t k).map f) := by
  simp [writeAll, h]

theorem writeAll_held_of_notMem {ks : List κ} {f : ρ → ρ} (h : k ∉ ks) :
    (T.writeAll t ks f).held k = T.held k := by
  simp [writeAll, h]

theorem visible_deleteAll {ks : List κ} :
    (T.deleteAll t ks).visible t k = if k ∈ ks then none else T.visible t k := by
  by_cases hk : k ∈ ks
  · rw [if_pos hk]
    by_cases hsome : (T.visible t k).isSome = true
    · exact visible_of_held (if_pos ⟨hk, hsome⟩)
    · have hheld : (T.deleteAll t ks).held k = T.held k := if_neg fun h => hsome h.2
      have hnone : T.visible t k = none := by simpa using hsome
      rw [← hnone, visible, visible, hheld]
      rfl
  · have hheld : (T.deleteAll t ks).held k = T.held k := if_neg fun h => hk h.1
    rw [if_neg hk, visible, visible, hheld]
    rfl

theorem holds_deleteAll {ks : List κ} (h : (T.deleteAll t ks).Holds t k) :
    k ∈ ks ∨ T.Holds t k := by
  by_cases hk : k ∈ ks ∧ (T.visible t k).isSome = true
  · exact .inl hk.1
  · obtain ⟨v, hv⟩ := h
    exact .inr ⟨v, (if_neg hk).symm.trans hv⟩

/-! ## Statements -/

omit [DecidableEq κ] in
/-- `T'` is left by a statement of transaction `t` in `T`: nothing is committed, and `t` locks
only rows that are free. -/
structure Statement (t : τ) (T T' : Table τ κ ρ) : Prop where
  rows : T'.rows = T.rows
  held : ∀ k, T'.held k = T.held k ∨ (T.free t k = true ∧ T'.Holds t k)

omit [DecidableEq κ] in
theorem Statement.refl (t : τ) (T : Table τ κ ρ) : T.Statement t T := ⟨rfl, fun _ => .inl rfl⟩

theorem Statement.write (h : T.free t k = true) (v : Option ρ) : T.Statement t (T.write t k v) where
  rows := rfl
  held k' := by
    rcases eq_or_ne k' k with rfl | hk
    · exact .inr ⟨h, v, write_held_self⟩
    · exact .inl (write_held_of_ne hk)

theorem Statement.writeAll {ks : List κ} (h : ∀ k ∈ ks, T.free t k = true) (f : ρ → ρ) :
    T.Statement t (T.writeAll t ks f) where
  rows := rfl
  held k := by
    by_cases hk : k ∈ ks
    · exact .inr ⟨h k hk, _, writeAll_held_of_mem hk⟩
    · exact .inl (writeAll_held_of_notMem hk)

theorem Statement.deleteAll {ks : List κ}
    (h : ∀ k ∈ ks, (T.visible t k).isSome = true → T.free t k = true) :
    T.Statement t (T.deleteAll t ks) where
  rows := rfl
  held k := by
    by_cases hk : k ∈ ks ∧ (T.visible t k).isSome = true
    · exact .inr ⟨h k hk.1 hk.2, none, if_pos hk⟩
    · exact .inl (if_neg hk)

omit [DecidableEq κ] in
/-- **A statement leaves the locks of the other transactions alone.** -/
theorem Statement.held_iff {T' : Table τ κ ρ} (h : T.Statement t T') (hne : t' ≠ t) :
    T'.held k = some (t', v) ↔ T.held k = some (t', v) := by
  rcases h.held k with heq | ⟨hfree, hholds⟩
  · rw [heq]
  · refine ⟨fun hv => absurd (hholds.eq hv) hne, fun hv => ?_⟩
    rcases free_iff.1 hfree with hnone | hholds'
    · rw [hnone] at hv
      cases hv
    · exact absurd (hholds'.eq hv) hne

omit [DecidableEq κ] in
/-- **A statement is not seen by the other transactions.** -/
theorem Statement.visible_eq {T' : Table τ κ ρ} (h : T.Statement t T') (hne : t' ≠ t) :
    T'.visible t' k = T.visible t' k := by
  rcases T.visible_cases t' k with hv | ⟨hn, hv⟩
  · exact visible_of_held ((h.held_iff hne).2 hv)
  · rw [hv, ← h.rows]
    exact visible_of_not_holds fun ⟨w, hw⟩ => hn ⟨w, (h.held_iff hne).1 hw⟩

/-! ## Every version -/

omit [DecidableEq τ] [DecidableEq κ] in
/-- Every version of every row, committed or not, meets `P`. -/
structure Versions (T : Table τ κ ρ) (P : ρ → Prop) : Prop where
  rows : ∀ k r, T.rows k = some r → P r
  held : ∀ k t r, T.held k = some (t, some r) → P r

namespace Versions

variable {P : ρ → Prop}

omit [DecidableEq κ] in
theorem visible {r : ρ} (h : T.Versions P) (hr : T.visible t k = some r) : P r := by
  rcases T.visible_cases t k with hv | ⟨-, hv⟩
  · exact h.held k t r (hr ▸ hv)
  · exact h.rows k r (hv ▸ hr)

omit [DecidableEq τ] in
theorem write (h : T.Versions P) (hv : ∀ r, v = some r → P r) : (T.write t k v).Versions P where
  rows := h.rows
  held k' t' r hr := by
    rcases eq_or_ne k' k with rfl | hk
    · rw [write_held_self] at hr
      exact hv r (Prod.mk.inj (Option.some.inj hr)).2
    · rw [write_held_of_ne hk] at hr
      exact h.held k' t' r hr

theorem writeAll {ks : List κ} {f : ρ → ρ} (h : T.Versions P) (hf : ∀ r, P r → P (f r)) :
    (T.writeAll t ks f).Versions P where
  rows := h.rows
  held k t' r hr := by
    by_cases hk : k ∈ ks
    · rw [writeAll_held_of_mem hk] at hr
      obtain ⟨r', hr', rfl⟩ := Option.map_eq_some_iff.1 (Prod.mk.inj (Option.some.inj hr)).2
      exact hf r' (h.visible hr')
    · rw [writeAll_held_of_notMem hk] at hr
      exact h.held k t' r hr

omit [DecidableEq κ] in
theorem commit (h : T.Versions P) : (T.commit t).Versions P where
  rows _ _ hr := h.visible hr
  held k t' r hr := h.held k t' r (commit_held_iff.1 hr).1

omit [DecidableEq κ] in
theorem rollback (h : T.Versions P) : (T.rollback t).Versions P where
  rows := h.rows
  held k t' r hr := h.held k t' r (rollback_held_iff.1 hr).1

end Versions

end Table

end Foundations
