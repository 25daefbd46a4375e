import Hookit.Foundations.Readable
import Mathlib.Data.List.Lex
import Mathlib.Data.List.Sort

/-!
# `json.dumps` with sorted keys

`Same x y` says that `x` and `y` are the same value up to the order of the keys of objects, at every
depth. `sortKeys` brings the keys into the order of their code points. `dumps_sortKeys_iff`: with
sorted keys and compact separators `json.dumps` writes two documents alike exactly when they are the
same.
-/

namespace Foundations

open PyStr

namespace Json

mutual

/-- The same value up to the order of the keys of objects. -/
def Same : Json → Json → Prop
  | arr xs, y => ∃ ys, y = arr ys ∧ SameItems xs ys
  | obj xs, y => ∃ ys, y = obj ys ∧ xs.length = ys.length ∧ SameFields xs ys
  | x, y => x = y

/-- Item by item. -/
def SameItems : List Json → List Json → Prop
  | [], ys => ys = []
  | x :: xs, ys => ∃ y ys', ys = y :: ys' ∧ Same x y ∧ SameItems xs ys'

/-- Every field of the first object is in the second. -/
def SameFields : List (PyStr × Json) → List (PyStr × Json) → Prop
  | [], _ => True
  | (k, x) :: xs, ys => (∃ y, (k, y) ∈ ys ∧ Same x y) ∧ SameFields xs ys

end

theorem same_str_iff {s : PyStr} {y : Json} : Same (str s) y ↔ str s = y := by
  simp only [Same]

theorem same_obj_iff {xs ys : List (PyStr × Json)} :
    Same (obj xs) (obj ys) ↔ xs.length = ys.length ∧ SameFields xs ys := by
  simp [Same]

/-- Sort the fields by their keys. -/
def sortFields (items : List (PyStr × Json)) : List (PyStr × Json) :=
  items.insertionSort fun a b => a.1 ≤ b.1

mutual

/-- The document with sorted keys. -/
def sortKeys : Json → Json
  | arr items => arr (sortKeysItems items)
  | obj items => obj (sortFields (sortKeysFields items))
  | x => x

def sortKeysItems : List Json → List Json
  | [] => []
  | x :: items => sortKeys x :: sortKeysItems items

def sortKeysFields : List (PyStr × Json) → List (PyStr × Json)
  | [] => []
  | (k, x) :: items => (k, sortKeys x) :: sortKeysFields items

end

/-! ## Sorted fields -/

theorem sortKeysFields_eq_map (items : List (PyStr × Json)) :
    sortKeysFields items = items.map fun item => (item.1, sortKeys item.2) := by
  induction items with
  | nil => simp only [sortKeysFields, List.map_nil]
  | cons item items ih => simp only [sortKeysFields, List.map_cons, ih]

@[simp] theorem keys_sortKeysFields (items : List (PyStr × Json)) :
    (sortKeysFields items).map Prod.fst = items.map Prod.fst := by
  rw [sortKeysFields_eq_map, List.map_map]
  rfl

@[simp] theorem length_sortKeysFields (items : List (PyStr × Json)) :
    (sortKeysFields items).length = items.length := by
  rw [sortKeysFields_eq_map, List.length_map]

theorem mem_sortKeysFields {items : List (PyStr × Json)} {k : PyStr} {z : Json} :
    (k, z) ∈ sortKeysFields items ↔ ∃ x, (k, x) ∈ items ∧ sortKeys x = z := by
  rw [sortKeysFields_eq_map]
  simp

theorem sortFields_perm (items : List (PyStr × Json)) : (sortFields items).Perm items :=
  List.perm_insertionSort _ items

theorem sortFields_pairwise (items : List (PyStr × Json)) :
    (sortFields items).Pairwise fun a b => a.1 ≤ b.1 := by
  have htotal : Std.Total fun a b : PyStr × Json => a.1 ≤ b.1 := ⟨fun a b => le_total a.1 b.1⟩
  have htrans : IsTrans (PyStr × Json) fun a b => a.1 ≤ b.1 := ⟨fun _ _ _ => le_trans⟩
  exact List.pairwise_insertionSort _ items

/-- Fields with distinct keys are sorted in one way. -/
theorem sortFields_eq_of_perm {xs ys : List (PyStr × Json)} (hkeys : (xs.map Prod.fst).Nodup)
    (h : xs.Perm ys) : sortFields xs = sortFields ys := by
  have hperm : (sortFields xs).Perm (sortFields ys) :=
    (sortFields_perm xs).trans (h.trans (sortFields_perm ys).symm)
  refine hperm.eq_of_pairwise (fun a b ha hb hab hba => ?_) (sortFields_pairwise xs)
    (sortFields_pairwise ys)
  exact List.inj_on_of_nodup_map hkeys ((sortFields_perm xs).subset ha)
    (h.symm.subset ((sortFields_perm ys).subset hb)) (le_antisymm hab hba)

/-! ## Well-formed documents -/

theorem wellFormedFields_iff {items : List (PyStr × Json)} : wellFormedFields items = true ↔
    ∀ item ∈ items, wellFormedText item.1 = true ∧ wellFormed item.2 = true := by
  induction items with
  | nil => simp [wellFormedFields]
  | cons item items ih => simp [wellFormedFields, ih]

mutual

theorem wellFormed_sortKeys : ∀ {x : Json}, wellFormed x = true → wellFormed (sortKeys x) = true
  | null, h | bool _, h | int _, h | float _, h | infinity _, h | nan, h | str _, h => h
  | arr items, h => by
    simp only [wellFormed] at h
    simp only [sortKeys, wellFormed, wellFormedItems_sortKeysItems h]
  | obj items, h => by
    simp only [wellFormed, Bool.and_eq_true, decide_eq_true_eq] at h
    have hperm := sortFields_perm (sortKeysFields items)
    have hkeys : ((sortFields (sortKeysFields items)).map Prod.fst).Nodup := by
      rw [(hperm.map Prod.fst).nodup_iff, keys_sortKeysFields]
      exact h.1
    have hfields : wellFormedFields (sortFields (sortKeysFields items)) = true :=
      wellFormedFields_iff.2 fun item hitem =>
        wellFormedFields_iff.1 (wellFormedFields_sortKeysFields h.2) item (hperm.subset hitem)
    simp only [sortKeys, wellFormed, hkeys, hfields, decide_true, Bool.and_self]

theorem wellFormedItems_sortKeysItems : ∀ {items : List Json}, wellFormedItems items = true →
    wellFormedItems (sortKeysItems items) = true
  | [], h => h
  | x :: items, h => by
    simp only [wellFormedItems, Bool.and_eq_true] at h
    simp only [sortKeysItems, wellFormedItems, wellFormed_sortKeys h.1,
      wellFormedItems_sortKeysItems h.2, Bool.and_self]

theorem wellFormedFields_sortKeysFields : ∀ {items : List (PyStr × Json)},
    wellFormedFields items = true → wellFormedFields (sortKeysFields items) = true
  | [], h => h
  | (k, x) :: items, h => by
    simp only [wellFormedFields, Bool.and_eq_true] at h
    simp only [sortKeysFields, wellFormedFields, h.1.1, wellFormed_sortKeys h.1.2,
      wellFormedFields_sortKeysFields h.2, Bool.and_self]

end

/-! ## The same values have the same sorted document -/

mutual

theorem sortKeys_eq_of_same : ∀ {x y : Json}, wellFormed x = true → wellFormed y = true →
    Same x y → sortKeys x = sortKeys y
  | null, y, _, _, h | bool _, y, _, _, h | int _, y, _, _, h | float _, y, _, _, h
  | infinity _, y, _, _, h | nan, y, _, _, h | str _, y, _, _, h => by
    simp only [Same] at h
    rw [h]
  | arr xs, y, hx, hy, h => by
    simp only [Same] at h
    obtain ⟨ys, rfl, hsame⟩ := h
    simp only [wellFormed] at hx hy
    simp only [sortKeys, sortKeysItems_eq_of_same hx hy hsame]
  | obj xs, y, hx, hy, h => by
    simp only [Same] at h
    obtain ⟨ys, rfl, hlength, hsame⟩ := h
    simp only [wellFormed, Bool.and_eq_true, decide_eq_true_eq] at hx hy
    have hkeys : ((sortKeysFields xs).map Prod.fst).Nodup := by
      rw [keys_sortKeysFields]
      exact hx.1
    have hperm : (sortKeysFields xs).Perm (sortKeysFields ys) := by
      refine (List.subperm_of_subset hkeys.of_map ?_).perm_of_length_le ?_
      · exact fun item => sortKeysFields_subset_of_same hx.2 hy.2 hsame item
      · rw [length_sortKeysFields, length_sortKeysFields, hlength]
    simp only [sortKeys, sortFields_eq_of_perm hkeys hperm]

theorem sortKeysItems_eq_of_same : ∀ {xs ys : List Json}, wellFormedItems xs = true →
    wellFormedItems ys = true → SameItems xs ys → sortKeysItems xs = sortKeysItems ys
  | [], ys, _, _, h => by
    simp only [SameItems] at h
    rw [h]
  | x :: xs, ys, hx, hy, h => by
    simp only [SameItems] at h
    obtain ⟨y, ys', rfl, hsame, hrest⟩ := h
    simp only [wellFormedItems, Bool.and_eq_true] at hx hy
    simp only [sortKeysItems, sortKeys_eq_of_same hx.1 hy.1 hsame,
      sortKeysItems_eq_of_same hx.2 hy.2 hrest]

theorem sortKeysFields_subset_of_same : ∀ {xs ys : List (PyStr × Json)},
    wellFormedFields xs = true → wellFormedFields ys = true → SameFields xs ys →
      ∀ item ∈ sortKeysFields xs, item ∈ sortKeysFields ys
  | [], ys, _, _, _, item, hitem => by
    simp only [sortKeysFields] at hitem
    cases hitem
  | (k, x) :: xs, ys, hx, hy, h, item, hitem => by
    simp only [SameFields] at h
    obtain ⟨⟨y, hmem, hsame⟩, hrest⟩ := h
    simp only [wellFormedFields, Bool.and_eq_true] at hx
    simp only [sortKeysFields] at hitem
    rcases List.mem_cons.1 hitem with rfl | hitem
    · have hwell : wellFormed y = true := (wellFormedFields_iff.1 hy _ hmem).2
      exact mem_sortKeysFields.2 ⟨y, hmem, (sortKeys_eq_of_same hx.1.2 hwell hsame).symm⟩
    · exact sortKeysFields_subset_of_same hx.2 hy hrest item hitem

end

/-! ## The same sorted document comes from the same values -/

theorem sortKeys_eq_arr {y : Json} {items : List Json} (h : sortKeys y = arr items) :
    ∃ ys, y = arr ys ∧ sortKeysItems ys = items := by
  cases y with
  | arr ys =>
    simp only [sortKeys, arr.injEq] at h
    exact ⟨ys, rfl, h⟩
  | _ => simp [sortKeys] at h

theorem sortKeys_eq_obj {y : Json} {items : List (PyStr × Json)} (h : sortKeys y = obj items) :
    ∃ ys, y = obj ys ∧ sortFields (sortKeysFields ys) = items := by
  cases y with
  | obj ys =>
    simp only [sortKeys, obj.injEq] at h
    exact ⟨ys, rfl, h⟩
  | _ => simp [sortKeys] at h

/-- A value that is neither an array nor an object is its own sorted document. -/
theorem eq_of_sortKeys_eq {x y : Json} (harr : ∀ items, x ≠ arr items)
    (hobj : ∀ items, x ≠ obj items) (h : x = sortKeys y) : x = y := by
  cases y with
  | arr ys =>
    simp only [sortKeys] at h
    exact absurd h (harr _)
  | obj ys =>
    simp only [sortKeys] at h
    exact absurd h (hobj _)
  | _ => exact h

mutual

theorem same_of_sortKeys_eq : ∀ {x y : Json}, sortKeys x = sortKeys y → Same x y
  | null, y, h | bool _, y, h | int _, y, h | float _, y, h | infinity _, y, h | nan, y, h
  | str _, y, h => eq_of_sortKeys_eq nofun nofun h
  | arr xs, y, h => by
    simp only [sortKeys] at h
    obtain ⟨ys, rfl, hitems⟩ := sortKeys_eq_arr h.symm
    simp only [Same]
    exact ⟨ys, rfl, sameItems_of_sortKeysItems_eq hitems.symm⟩
  | obj xs, y, h => by
    simp only [sortKeys] at h
    obtain ⟨ys, rfl, hfields⟩ := sortKeys_eq_obj h.symm
    have hperm : (sortKeysFields xs).Perm (sortKeysFields ys) :=
      (sortFields_perm _).symm.trans (hfields ▸ sortFields_perm _)
    have hlength := hperm.length_eq
    rw [length_sortKeysFields, length_sortKeysFields] at hlength
    simp only [Same]
    exact ⟨ys, rfl, hlength, sameFields_of_subset fun item hitem => hperm.subset hitem⟩

theorem sameItems_of_sortKeysItems_eq : ∀ {xs ys : List Json},
    sortKeysItems xs = sortKeysItems ys → SameItems xs ys
  | [], [], _ => by simp only [SameItems]
  | [], y :: ys, h => by simp [sortKeysItems] at h
  | x :: xs, [], h => by simp [sortKeysItems] at h
  | x :: xs, y :: ys, h => by
    simp only [sortKeysItems, List.cons.injEq] at h
    simp only [SameItems]
    exact ⟨y, ys, rfl, same_of_sortKeys_eq h.1, sameItems_of_sortKeysItems_eq h.2⟩

theorem sameFields_of_subset : ∀ {xs ys : List (PyStr × Json)},
    (∀ item ∈ sortKeysFields xs, item ∈ sortKeysFields ys) → SameFields xs ys
  | [], _, _ => by simp only [SameFields]
  | (k, x) :: xs, ys, h => by
    simp only [sortKeysFields, List.forall_mem_cons] at h
    obtain ⟨y, hmem, hsorted⟩ := mem_sortKeysFields.1 h.1
    simp only [SameFields]
    exact ⟨⟨y, hmem, same_of_sortKeys_eq hsorted.symm⟩, sameFields_of_subset h.2⟩

end

/-- **Sorted and compact, `json.dumps` writes exactly the same values alike.** -/
theorem dumps_sortKeys_iff {x y : Json} (hx : wellFormed x = true) (hy : wellFormed y = true) :
    compact (sortKeys x) = compact (sortKeys y) ↔ Same x y := by
  constructor
  · intro h
    exact same_of_sortKeys_eq
      (dumps_injective (wellFormed_sortKeys hx) (wellFormed_sortKeys hy) h)
  · intro h
    rw [sortKeys_eq_of_same hx hy h]

end Json

end Foundations
