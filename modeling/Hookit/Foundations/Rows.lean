import Mathlib.Data.List.Nodup

/-!
# Rows under a primary key

The committed rows of a database table, in the order of their insertion, no two under one key.

`get?` is the lookup by key, `select` a query; `insert`, `put`, `modify` and `filter` are what
statements do to a table. The lemmas say what a lookup finds afterwards.
-/

namespace Foundations

/-- A table: keys with their rows. -/
structure Rows (κ ρ : Type*) where
  entries : List (κ × ρ)
  nodup : (entries.map Prod.fst).Nodup

namespace Rows

variable {κ ρ : Type*} {T : Rows κ ρ} {k k' : κ} {v v' : ρ}

@[ext]
theorem ext {T T' : Rows κ ρ} (h : T.entries = T'.entries) : T = T' := by
  cases T
  cases T'
  cases h
  rfl

def empty : Rows κ ρ := ⟨[], List.nodup_nil⟩

/-- The keys in use. -/
def keys (T : Rows κ ρ) : List κ := T.entries.map Prod.fst

/-- The rows that a query returns, with their keys. -/
def select (T : Rows κ ρ) (p : κ → ρ → Bool) : List (κ × ρ) :=
  T.entries.filter fun e => p e.1 e.2

theorem mem_select {p : κ → ρ → Bool} {e : κ × ρ} :
    e ∈ T.select p ↔ e ∈ T.entries ∧ p e.1 e.2 = true := List.mem_filter

theorem mem_keys : k ∈ T.keys ↔ ∃ v, (k, v) ∈ T.entries := by simp [keys]

theorem eq_of_mem (h : (k, v) ∈ T.entries) (h' : (k, v') ∈ T.entries) : v = v' := by
  have hpair := List.inj_on_of_nodup_map T.nodup h h' rfl
  exact (Prod.mk.inj hpair).2

/-! ## Statements -/

theorem nodup_filter (T : Rows κ ρ) (p : κ → ρ → Bool) :
    ((T.entries.filter fun e => p e.1 e.2).map Prod.fst).Nodup :=
  (List.Sublist.map Prod.fst List.filter_sublist).nodup T.nodup

theorem nodup_select (T : Rows κ ρ) (p : κ → ρ → Bool) : ((T.select p).map Prod.fst).Nodup :=
  T.nodup_filter p

/-- Keep the rows that satisfy a condition. -/
def filter (T : Rows κ ρ) (p : κ → ρ → Bool) : Rows κ ρ :=
  ⟨T.entries.filter fun e => p e.1 e.2, T.nodup_filter p⟩

theorem nodup_modify (T : Rows κ ρ) (f : κ → ρ → ρ) :
    ((T.entries.map fun e => (e.1, f e.1 e.2)).map Prod.fst).Nodup := by
  rw [List.map_map]
  exact T.nodup

/-- Change rows; keys stay. -/
def modify (T : Rows κ ρ) (f : κ → ρ → ρ) : Rows κ ρ :=
  ⟨T.entries.map fun e => (e.1, f e.1 e.2), T.nodup_modify f⟩

theorem nodup_concat (T : Rows κ ρ) (v : ρ) (h : k ∉ T.keys) :
    ((T.entries ++ [(k, v)]).map Prod.fst).Nodup := by
  rw [List.map_append, List.nodup_append]
  refine ⟨T.nodup, by simp, fun a ha b hb => ?_⟩
  simp only [List.map_cons, List.map_nil, List.mem_singleton] at hb
  rintro rfl
  exact h (hb ▸ ha)

theorem select_congr {p q : κ → ρ → Bool} (h : ∀ e ∈ T.entries, p e.1 e.2 = q e.1 e.2) :
    T.select p = T.select q := List.filter_congr h

theorem filter_congr {p q : κ → ρ → Bool} (h : ∀ e ∈ T.entries, p e.1 e.2 = q e.1 e.2) :
    T.filter p = T.filter q := ext (List.filter_congr h)

theorem filter_eq_self {p : κ → ρ → Bool} (h : ∀ e ∈ T.entries, p e.1 e.2 = true) :
    T.filter p = T := ext (List.filter_eq_self.2 h)

theorem select_filter (p q : κ → ρ → Bool) :
    (T.filter p).select q = T.select fun k v => p k v && q k v := by
  simp only [select, filter, List.filter_filter, Bool.and_comm]

theorem filter_filter (p q : κ → ρ → Bool) :
    (T.filter p).filter q = T.filter fun k v => p k v && q k v := ext (select_filter p q)

theorem filter_modify {p : κ → ρ → Bool} {f : κ → ρ → ρ}
    (h : ∀ e ∈ T.entries, p e.1 (f e.1 e.2) = p e.1 e.2) :
    (T.modify f).filter p = (T.filter p).modify f := by
  ext1
  simp only [filter, modify, List.filter_map]
  exact congrArg _ (List.filter_congr h)

theorem modify_modify (f g : κ → ρ → ρ) :
    (T.modify f).modify g = T.modify fun k v => g k (f k v) := ext (List.map_map ..)

theorem modify_congr {f g : κ → ρ → ρ} (h : ∀ e ∈ T.entries, f e.1 e.2 = g e.1 e.2) :
    T.modify f = T.modify g :=
  ext (List.map_congr_left fun e he => congrArg (Prod.mk e.1) (h e he))

variable [DecidableEq κ]

/-- The row under a key. -/
def get? (T : Rows κ ρ) (k : κ) : Option ρ := (T.entries.find? fun e => e.1 = k).map Prod.snd

theorem get?_eq_some_iff : T.get? k = some v ↔ (k, v) ∈ T.entries := by
  rw [get?, Option.map_eq_some_iff]
  constructor
  · rintro ⟨⟨k', v'⟩, hfind, rfl⟩
    obtain rfl : k' = k := by simpa using List.find?_some hfind
    exact List.mem_of_find?_eq_some hfind
  · intro h
    cases hfind : T.entries.find? fun e => e.1 = k with
    | none => simpa using List.find?_eq_none.1 hfind _ h
    | some e =>
      obtain ⟨k', v'⟩ := e
      obtain rfl : k' = k := by simpa using List.find?_some hfind
      exact ⟨_, rfl, eq_of_mem (List.mem_of_find?_eq_some hfind) h⟩

theorem get?_eq_none_iff : T.get? k = none ↔ k ∉ T.keys := by
  rw [mem_keys, Option.eq_none_iff_forall_not_mem]
  simp [get?_eq_some_iff]

/-- Change the row under a key. -/
def modifyAt (T : Rows κ ρ) (k : κ) (f : ρ → ρ) : Rows κ ρ :=
  T.modify fun k' v => if k' = k then f v else v

/-- Insert a row under a key that is not in use (`ON CONFLICT DO NOTHING` where it is). -/
def insert (T : Rows κ ρ) (k : κ) (v : ρ) : Rows κ ρ :=
  if h : k ∈ T.keys then T else ⟨T.entries ++ [(k, v)], T.nodup_concat v h⟩

/-- Insert a row, or replace the one under the key. -/
def put (T : Rows κ ρ) (k : κ) (v : ρ) : Rows κ ρ := (T.insert k v).modifyAt k fun _ => v

/-- Insert rows one after the other. -/
def insertAll (T : Rows κ ρ) (l : List (κ × ρ)) : Rows κ ρ :=
  l.foldl (fun T e => T.insert e.1 e.2) T

/-! ## What a lookup finds afterwards -/

section Lookup

@[simp] theorem get?_empty : (empty : Rows κ ρ).get? k = none := rfl

theorem get?_filter (p : κ → ρ → Bool) : (T.filter p).get? k = (T.get? k).filter (p k) := by
  ext v
  rw [get?_eq_some_iff, Option.filter_eq_some_iff, get?_eq_some_iff]
  exact List.mem_filter

theorem get?_modify (f : κ → ρ → ρ) : (T.modify f).get? k = (T.get? k).map (f k) := by
  ext v
  rw [get?_eq_some_iff, Option.map_eq_some_iff]
  simp only [modify, List.mem_map, Prod.mk.injEq, get?_eq_some_iff]
  constructor
  · rintro ⟨⟨k', v'⟩, hmem, rfl, rfl⟩
    exact ⟨v', hmem, rfl⟩
  · rintro ⟨v', hmem, rfl⟩
    exact ⟨(k, v'), hmem, rfl, rfl⟩

theorem get?_modifyAt (f : ρ → ρ) :
    (T.modifyAt k f).get? k' = if k' = k then (T.get? k').map f else T.get? k' := by
  rw [modifyAt, get?_modify]
  split <;> simp

theorem entries_insert (h : T.get? k = none) : (T.insert k v).entries = T.entries ++ [(k, v)] := by
  rw [insert, dif_neg (get?_eq_none_iff.1 h)]

theorem insert_eq_self (h : T.get? k = some v') : T.insert k v = T :=
  dif_pos (mem_keys.2 ⟨v', get?_eq_some_iff.1 h⟩)

theorem get?_insert : (T.insert k v).get? k' =
    if k' = k then some ((T.get? k).getD v) else T.get? k' := by
  cases h : T.get? k with
  | some v' =>
    rw [insert_eq_self h]
    split
    · next hk => rw [hk, h, Option.getD_some]
    · rfl
  | none =>
    ext w
    rw [get?_eq_some_iff, entries_insert h, List.mem_append, ← get?_eq_some_iff]
    split
    · next hk => simp [hk, h, eq_comm]
    · next hk => simp [hk]

theorem get?_put : (T.put k v).get? k' = if k' = k then some v else T.get? k' := by
  rw [put, get?_modifyAt, get?_insert]
  split <;> simp

/-- Rows under keys that are not in use, no two under one. -/
def Unused (T : Rows κ ρ) (l : List (κ × ρ)) : Prop :=
  (l.map Prod.fst).Nodup ∧ ∀ e ∈ l, T.get? e.1 = none

theorem unused_nil : T.Unused [] := ⟨List.nodup_nil, by simp⟩

theorem entries_insertAll {l : List (κ × ρ)} (h : T.Unused l) :
    (T.insertAll l).entries = T.entries ++ l := by
  induction l generalizing T with
  | nil => exact (List.append_nil _).symm
  | cons e l ih =>
    obtain ⟨hnodup, hnone⟩ := h
    rw [List.map_cons, List.nodup_cons] at hnodup
    have he := hnone e (by simp)
    have hrest : (T.insert e.1 e.2).Unused l := by
      refine ⟨hnodup.2, fun e' he' => ?_⟩
      have hne : e'.1 ≠ e.1 := fun heq => hnodup.1 (heq ▸ List.mem_map_of_mem he')
      rw [get?_insert, if_neg hne]
      exact hnone e' (List.mem_cons_of_mem _ he')
    rw [insertAll, List.foldl_cons]
    refine (ih hrest).trans ?_
    rw [entries_insert he, List.append_assoc, List.singleton_append]

theorem get?_insertAll {l : List (κ × ρ)} (h : T.Unused l) :
    (T.insertAll l).get? k = some v ↔ T.get? k = some v ∨ (k, v) ∈ l := by
  rw [get?_eq_some_iff, entries_insertAll h, List.mem_append, ← get?_eq_some_iff]

/-- What is inserted and then replaced is put. -/
theorem modifyAt_insert : (T.insert k v').modifyAt k (fun _ => v) = T.put k v := by
  cases h : T.get? k with
  | some w => rw [put, insert_eq_self h, insert_eq_self h]
  | none =>
    ext1
    simp only [put, modifyAt, modify, entries_insert h, List.map_append, List.map_cons, List.map_nil,
      if_true]

theorem modifyAt_eq_self {f : ρ → ρ} (h : T.get? k = none) : T.modifyAt k f = T := by
  ext1
  refine (List.map_congr_left fun e he => ?_).trans (List.map_id _)
  have hne : e.1 ≠ k := by
    rintro rfl
    exact get?_eq_none_iff.1 h (List.mem_map_of_mem he)
  simp [hne]

/-! ## Statements under a condition -/

theorem filter_modifyAt {p : κ → ρ → Bool} {f : ρ → ρ}
    (h : ∀ v, T.get? k = some v → p k (f v) = p k v) :
    (T.modifyAt k f).filter p = (T.filter p).modifyAt k f := by
  ext1
  simp only [filter, modifyAt, modify, List.filter_map]
  congr 1
  refine List.filter_congr fun e he => ?_
  obtain ⟨k', v⟩ := e
  by_cases hk : k' = k
  · subst hk
    simp [h v (get?_eq_some_iff.2 he)]
  · simp [hk]

theorem filter_insert {p : κ → ρ → Bool} (h : T.get? k = none) :
    (T.insert k v).filter p = if p k v then (T.filter p).insert k v else T.filter p := by
  have hnone : (T.filter p).get? k = none := by simp [get?_filter, h]
  ext1
  split
  · next hp =>
    rw [entries_insert hnone]
    simp [filter, entries_insert h, List.filter_append, hp]
  · next hp => simp [filter, entries_insert h, List.filter_append, hp]

theorem Unused.filter {l : List (κ × ρ)} (h : T.Unused l) (p q : κ → ρ → Bool) :
    (T.filter p).Unused (l.filter fun e => q e.1 e.2) := by
  refine ⟨(List.Sublist.map Prod.fst List.filter_sublist).nodup h.1, fun e he => ?_⟩
  rw [get?_filter, h.2 e (List.mem_of_mem_filter he)]
  rfl

theorem filter_insertAll {p : κ → ρ → Bool} {l : List (κ × ρ)} (h : T.Unused l) :
    (T.insertAll l).filter p = (T.filter p).insertAll (l.filter fun e => p e.1 e.2) := by
  ext1
  have hleft : ((T.insertAll l).filter p).entries =
      (T.insertAll l).entries.filter fun e => p e.1 e.2 := rfl
  rw [entries_insertAll (h.filter p p), hleft, entries_insertAll h, List.filter_append]
  rfl

end Lookup

end Rows

end Foundations
