import Mathlib.Algebra.Order.Floor.Div
import Mathlib.Data.List.Sort

/-!
# Keyset pagination

A list that is read page by page, newest first, while it changes. A page is cut from the rows
below a cursor, the key of the last row of the page before; one row more than the page holds is
fetched to learn whether there is a next page. Keys are in any linear order, and a cursor is any
encoding of a key that decodes.

* `page` is one fetch, `Chain` follows the cursors over a sequence of states.
* `chain_decreasing`: the keys of the rows that are returned strictly decrease.
* `chain_complete`: a chain that ends has returned every row that was there at each fetch, and
  `chain_count_eq_one` that it has returned it once.
* `chain_exists_next`: a chain goes on as long as there is a next cursor.
* `chain_length_eq`, `exists_chain`: over a state that does not change, a chain ends after as many
  pages as it takes.
-/

namespace Foundations.Keyset

universe u

variable {ρ κ C : Type u} [LinearOrder κ] (key : ρ → κ)

/-- The rows below a cursor, in descending order of their keys. -/
def below (rows : List ρ) (cursor : Option κ) : List ρ :=
  (rows.filter fun r => cursor.all fun c => key r < c).insertionSort fun a b => key b ≤ key a

/-- A page and the cursor of the next one. -/
structure Page (ρ C : Type u) where
  items : List ρ
  next : Option C

/-- The items of a page, in another form. -/
def Page.map {ρ α C : Type u} (f : ρ → α) (p : Page ρ C) : Page α C := ⟨p.items.map f, p.next⟩

/-- Fetch `limit + 1` rows below the cursor, and cut the page from them. -/
def page (encode : ρ → C) (limit : ℕ) (rows : List ρ) (cursor : Option κ) : Page ρ C :=
  let probe := (below key rows cursor).take (limit + 1)
  { items := probe.take limit
    next := if limit < probe.length then (probe.take limit).getLast?.map encode else none }

/-- What a cursor says, where it decodes; no cursor says to begin at the top. -/
def cursorKey (decode : C → Option κ) : Option C → Option (Option κ)
  | none => some none
  | some c => (decode c).map some

/-- Fetch a page at an encoded cursor. -/
def fetch (encode : ρ → C) (decode : C → Option κ) (limit : ℕ) (rows : List ρ)
    (cursor : Option C) : Option (Page ρ C) :=
  (cursorKey decode cursor).map (page key encode limit rows)

/-- The pages that are fetched one after the other from fetch number `n` on, beginning at a
cursor, and the cursor that the last of them leaves. -/
inductive Chain (fetch : ℕ → Option C → Option (Page ρ C)) :
    ℕ → Option C → List (Page ρ C) → Option C → Prop
  | last {n : ℕ} {c : Option C} {p : Page ρ C} : fetch n c = some p → Chain fetch n c [p] p.next
  | more {n : ℕ} {c e : Option C} {c' : C} {p : Page ρ C} {ps : List (Page ρ C)} :
      fetch n c = some p → p.next = some c' → Chain fetch (n + 1) (some c') ps e →
      Chain fetch n c (p :: ps) e

/-- The keys of the rows of the pages. -/
def keys (ps : List (Page ρ C)) : List κ := (ps.flatMap Page.items).map key

variable {key}

/-! ## One page -/

theorem mem_below {rows : List ρ} {cursor : Option κ} {r : ρ} :
    r ∈ below key rows cursor ↔ r ∈ rows ∧ cursor.all (fun c => key r < c) = true := by
  simp [below, List.mem_filter]

/-- Without a cursor all rows come. -/
theorem below_perm (rows : List ρ) : (below key rows none).Perm rows := by
  refine (List.perm_insertionSort _ _).trans (List.Perm.of_eq ?_)
  exact List.filter_eq_self.2 fun _ _ => rfl

/-- The order of a page: rows with different keys come strictly decreasing. -/
theorem below_decreasing {rows : List ρ} (hrows : (rows.map key).Nodup) (cursor : Option κ) :
    ((below key rows cursor).map key).Pairwise (· > ·) := by
  let r : ρ → ρ → Prop := fun a b => key b ≤ key a
  have htotal : Std.Total r := ⟨fun a b => le_total (key b) (key a)⟩
  have htrans : IsTrans ρ r := ⟨fun a b c hab hbc => hbc.trans hab⟩
  have hsorted : (below key rows cursor).Pairwise r := List.pairwise_insertionSort r _
  have hnodup : ((below key rows cursor).map key).Nodup := by
    refine (List.Perm.map key (List.perm_insertionSort _ _)).nodup_iff.2 ?_
    exact hrows.sublist (List.Sublist.map key List.filter_sublist)
  rw [List.Nodup, List.pairwise_map] at hnodup
  rw [List.pairwise_map]
  exact (hsorted.and hnodup).imp fun h => lt_of_le_of_ne h.1 h.2.symm

/-- What comes after the first `n` of a decreasing list: the rows with at least `n` above them. -/
theorem mem_drop_iff {l : List ρ} (hl : (l.map key).Pairwise (· > ·)) {r : ρ} (hr : r ∈ l) {n : ℕ} :
    r ∈ l.drop n ↔ n ≤ (l.filter fun r' => key r < key r').length := by
  induction l generalizing n with
  | nil => cases hr
  | cons a l ih =>
    rw [List.map_cons, List.pairwise_cons] at hl
    obtain ⟨hhead, htail⟩ := hl
    cases n with
    | zero => simpa using hr
    | succ n =>
      rw [List.drop_succ_cons]
      rcases List.mem_cons.1 hr with rfl | hmem
      · have hnone : (r :: l).filter (fun r' => key r < key r') = [] := by
          refine List.filter_eq_nil_iff.2 fun r' hr' hlt => ?_
          rcases List.mem_cons.1 hr' with rfl | hr'
          · exact lt_irrefl _ (of_decide_eq_true hlt)
          · exact lt_asymm (of_decide_eq_true hlt) (hhead _ (List.mem_map_of_mem hr'))
        rw [hnone]
        refine iff_of_false (fun hdrop => ?_) (by simp)
        exact lt_irrefl _ (hhead _ (List.mem_map_of_mem (List.mem_of_mem_drop hdrop)))
      · have hlt : key r < key a := hhead _ (List.mem_map_of_mem hmem)
        rw [List.filter_cons_of_pos (by simpa using hlt), List.length_cons, ih htail hmem]
        omega

/-- **A page** is all of the rows below the cursor, or as many of the first of them as the limit
says, with the key of the last as the next cursor. -/
theorem page_cases (encode : ρ → C) {limit : ℕ} (hlimit : 1 ≤ limit) (rows : List ρ)
    (cursor : Option κ) :
    ((below key rows cursor).length ≤ limit ∧
      page key encode limit rows cursor = ⟨below key rows cursor, none⟩) ∨
    ∃ first last rest, below key rows cursor = first ++ last :: rest ∧ rest ≠ [] ∧
      first.length + 1 = limit ∧
      page key encode limit rows cursor = ⟨first ++ [last], some (encode last)⟩ := by
  generalize hbelow : below key rows cursor = l
  have hpage : page key encode limit rows cursor = ⟨l.take limit,
      if limit < (l.take (limit + 1)).length then (l.take limit).getLast?.map encode else none⟩ := by
    simp only [page, hbelow, List.take_take, Nat.min_eq_left (Nat.le_succ limit)]
  rcases le_or_gt l.length limit with hle | hgt
  · refine .inl ⟨hle, ?_⟩
    rw [hpage, List.take_of_length_le hle, if_neg]
    rw [List.length_take]
    omega
  · right
    have hlt : limit - 1 < l.length := by omega
    have hsplit : l = l.take (limit - 1) ++ l[limit - 1] :: l.drop limit := by
      conv_lhs => rw [← List.take_append_drop (limit - 1) l, List.drop_eq_getElem_cons hlt,
        Nat.sub_add_cancel hlimit]
    have htake : l.take limit = l.take (limit - 1) ++ [l[limit - 1]] := by
      conv_lhs => rw [← Nat.sub_add_cancel hlimit, List.take_succ_eq_append_getElem hlt]
    refine ⟨l.take (limit - 1), l[limit - 1], l.drop limit, hsplit, ?_, ?_, ?_⟩
    · simpa using hgt
    · rw [List.length_take]
      omega
    · rw [hpage, if_pos (by rw [List.length_take]; omega), htake, List.getLast?_concat]
      rfl

/-! ## The chain of pages -/

section Chain

variable {encode : ρ → C} {decode : C → Option κ} {limit : ℕ}

/-- A fetched page, at the key that its cursor says. -/
theorem fetch_eq_some_iff {rows : List ρ} {c : Option C} {p : Page ρ C} :
    fetch key encode decode limit rows c = some p ↔
      ∃ cursor, cursorKey decode c = some cursor ∧ page key encode limit rows cursor = p := by
  simp [fetch, Option.map_eq_some_iff]

/-- A next cursor is the encoding of a row. -/
theorem exists_encode_of_next {rows : List ρ} {cursor : Option κ} {c : C}
    (h : (page key encode limit rows cursor).next = some c) : ∃ r, encode r = c := by
  simp only [page] at h
  split at h
  · obtain ⟨r, -, hr⟩ := Option.map_eq_some_iff.1 h
    exact ⟨r, hr⟩
  · cases h

/-- A chain over the states from the second on. -/
theorem Chain.shift {fetch : ℕ → Option C → Option (Page ρ C)} {n : ℕ} {c e : Option C}
    {ps : List (Page ρ C)} (h : Chain (fun m => fetch (m + 1)) n c ps e) :
    Chain fetch (n + 1) c ps e := by
  induction h with
  | last hp => exact .last hp
  | more hp hnext _ ih => exact .more hp hnext ih

/-- A chain returns rows of the states that it passes. -/
theorem mem_of_chain {rows : ℕ → List ρ} {n : ℕ} {c e : Option C} {ps : List (Page ρ C)}
    (h : Chain (fun m => fetch key encode decode limit (rows m)) n c ps e) {r : ρ}
    (hr : r ∈ ps.flatMap Page.items) : ∃ m, r ∈ rows m := by
  have hpage : ∀ {m : ℕ} {c : Option C} {p : Page ρ C},
      fetch key encode decode limit (rows m) c = some p → r ∈ p.items → ∃ m, r ∈ rows m := by
    intro m c p hp hr
    obtain ⟨cursor, -, rfl⟩ := fetch_eq_some_iff.1 hp
    exact ⟨m, (mem_below.1 (List.mem_of_mem_take (List.mem_of_mem_take hr))).1⟩
  induction h with
  | last hp => exact hpage hp (by simpa using hr)
  | more hp _ _ ih =>
    rw [List.flatMap_cons, List.mem_append] at hr
    exact hr.elim (hpage hp) ih

variable (hdecode : ∀ r, decode (encode r) = some (key r)) (hlimit : 1 ≤ limit)
  {rows : ℕ → List ρ} {n : ℕ} {c e : Option C} {ps : List (Page ρ C)} {cursor : Option κ}

include hdecode hlimit

/-- The keys of a chain strictly decrease, from below the cursor that it begins at. -/
theorem chain_decreasing (hnodup : ∀ m, ((rows m).map key).Nodup)
    (h : Chain (fun m => fetch key encode decode limit (rows m)) n c ps e)
    (hcursor : cursorKey decode c = some cursor) :
    (keys key ps).Pairwise (· > ·) ∧ ∀ k ∈ keys key ps, cursor.all (fun c => k < c) = true := by
  induction h generalizing cursor with
  | @last n c p hp =>
    obtain ⟨cursor', hcursor', rfl⟩ := fetch_eq_some_iff.1 hp
    obtain rfl : cursor = cursor' := Option.some.inj (hcursor.symm.trans hcursor')
    have hsub : (page key encode limit (rows n) cursor).items.Sublist
        (below key (rows n) cursor) :=
      (List.take_sublist _ _).trans (List.take_sublist _ _)
    simp only [keys, List.flatMap_cons, List.flatMap_nil, List.append_nil]
    refine ⟨(below_decreasing (hnodup n) cursor).sublist (hsub.map key), fun k hk => ?_⟩
    obtain ⟨r, hr, rfl⟩ := List.mem_map.1 hk
    exact (mem_below.1 (hsub.mem hr)).2
  | @more n c e c' p ps hp hnext hchain ih =>
    obtain ⟨cursor', hcursor', rfl⟩ := fetch_eq_some_iff.1 hp
    obtain rfl : cursor = cursor' := Option.some.inj (hcursor.symm.trans hcursor')
    rcases page_cases encode hlimit (rows n) cursor with ⟨-, hpage⟩ |
      ⟨first, last, rest, hbelow, -, -, hpage⟩
    · rw [hpage] at hnext
      cases hnext
    · rw [hpage] at hnext
      obtain rfl : encode last = c' := Option.some.inj hnext
      -- what follows is below the last row of this page, and that row is below the rest of it
      have hcursor' : cursorKey decode (some (encode last)) = some (some (key last)) := by
        simp [cursorKey, hdecode]
      obtain ⟨hrest, hlow⟩ := ih hcursor'
      have hsub : (first ++ [last]).Sublist (below key (rows n) cursor) := by
        rw [hbelow, List.append_cons first last rest]
        exact List.sublist_append_left _ _
      have hpair := (below_decreasing (hnodup n) cursor).sublist (hsub.map key)
      have hkeys : keys key (⟨first ++ [last], some (encode last)⟩ :: ps) =
          (first ++ [last]).map key ++ keys key ps := by simp [keys]
      rw [hpage, hkeys]
      have hfirst : ∀ k ∈ (first ++ [last]).map key, key last ≤ k := by
        intro k hk
        rw [List.map_append, List.pairwise_append] at hpair
        rw [List.map_append, List.mem_append] at hk
        rcases hk with hk | hk
        · exact (hpair.2.2 k hk (key last) (by simp)).le
        · simp only [List.map_cons, List.map_nil, List.mem_singleton] at hk
          exact hk.ge
      have hlow' : ∀ k ∈ keys key ps, k < key last := by simpa using hlow
      refine ⟨List.pairwise_append.2 ⟨hpair, hrest, fun a ha b hb => ?_⟩, fun k hk => ?_⟩
      · exact (hlow' b hb).trans_le (hfirst a ha)
      · have hlast : cursor.all (fun c => key last < c) = true :=
          (mem_below.1 (hsub.mem (by simp : last ∈ first ++ [last]))).2
        rcases List.mem_append.1 hk with hk | hk
        · obtain ⟨r, hr, rfl⟩ := List.mem_map.1 hk
          exact (mem_below.1 (hsub.mem hr)).2
        · cases cursor with
          | none => rfl
          | some c =>
            simp only [Option.all_some, decide_eq_true_eq] at hlast ⊢
            exact (hlow' k hk).trans hlast

/-- A chain that ends has returned each key below its cursor that was there at every fetch. -/
theorem chain_complete (hnodup : ∀ m, ((rows m).map key).Nodup)
    (h : Chain (fun m => fetch key encode decode limit (rows m)) n c ps e) (he : e = none)
    (hcursor : cursorKey decode c = some cursor) {k : κ}
    (hk : cursor.all (fun c => k < c) = true)
    (hthere : ∀ m, n ≤ m → m < n + ps.length → k ∈ (rows m).map key) : k ∈ keys key ps := by
  induction h generalizing cursor with
  | @last n c p hp =>
    obtain ⟨cursor', hcursor', rfl⟩ := fetch_eq_some_iff.1 hp
    obtain rfl : cursor = cursor' := Option.some.inj (hcursor.symm.trans hcursor')
    obtain ⟨r, hr, rfl⟩ := List.mem_map.1 (hthere n le_rfl (by simp))
    rcases page_cases encode hlimit (rows n) cursor with ⟨-, hpage⟩ |
      ⟨first, last, rest, -, -, -, hpage⟩
    · rw [hpage]
      simpa [keys] using ⟨r, mem_below.2 ⟨hr, hk⟩, rfl⟩
    · rw [hpage] at he
      cases he
  | @more n c e c' p ps hp hnext hchain ih =>
    obtain ⟨cursor', hcursor', rfl⟩ := fetch_eq_some_iff.1 hp
    obtain rfl : cursor = cursor' := Option.some.inj (hcursor.symm.trans hcursor')
    rcases page_cases encode hlimit (rows n) cursor with ⟨-, hpage⟩ |
      ⟨first, last, rest, hbelow, -, -, hpage⟩
    · rw [hpage] at hnext
      cases hnext
    · rw [hpage] at hnext
      obtain rfl : encode last = c' := Option.some.inj hnext
      have hkeys : keys key (⟨first ++ [last], some (encode last)⟩ :: ps) =
          (first ++ [last]).map key ++ keys key ps := by simp [keys]
      rw [hpage, hkeys, List.mem_append]
      have hcursor' : cursorKey decode (some (encode last)) = some (some (key last)) := by
        simp [cursorKey, hdecode]
      rcases lt_or_ge k (key last) with hlt | hge
      · refine .inr (ih he hcursor' (by simpa using hlt) fun m hm hm' => hthere m (by omega) ?_)
        simp only [List.length_cons]
        omega
      · -- it is on this page: all that comes after the page is below its last row
        left
        obtain ⟨r, hr, rfl⟩ := List.mem_map.1 (hthere n le_rfl (by simp))
        have hmem : r ∈ first ++ last :: rest := hbelow ▸ mem_below.2 ⟨hr, hk⟩
        have hpair := below_decreasing (hnodup n) cursor
        rw [hbelow, List.append_cons, List.map_append, List.pairwise_append] at hpair
        rw [List.append_cons, List.mem_append] at hmem
        rcases hmem with hmem | hmem
        · exact List.mem_map_of_mem hmem
        · have := hpair.2.2 (key last) (by simp) (key r) (List.mem_map_of_mem hmem)
          exact absurd this (not_lt.2 hge)

/-- A chain that ends has returned each row below its cursor that was there at every fetch, once. -/
theorem chain_count_eq_one [DecidableEq ρ] (hnodup : ∀ m, ((rows m).map key).Nodup)
    (h : Chain (fun m => fetch key encode decode limit (rows m)) n c ps none)
    (hcursor : cursorKey decode c = some cursor) {r : ρ}
    (hr : cursor.all (fun c => key r < c) = true) (hthere : ∀ m, r ∈ rows m) :
    (ps.flatMap Page.items).count r = 1 := by
  obtain ⟨r', hr', hkey⟩ := List.mem_map.1 (chain_complete hdecode hlimit hnodup h rfl hcursor hr
    fun m _ _ => List.mem_map_of_mem (hthere m))
  obtain ⟨m, hm⟩ := mem_of_chain h hr'
  obtain rfl := List.inj_on_of_nodup_map (hnodup m) hm (hthere m) hkey
  have hpair := (chain_decreasing hdecode hlimit hnodup h hcursor).1
  exact List.count_eq_one_of_mem (.of_map _ (hpair.imp fun hlt => ne_of_gt hlt)) hr'

omit hlimit in
/-- A chain leaves a cursor that decodes: the next page can be fetched. -/
theorem chain_exists_next (h : Chain (fun m => fetch key encode decode limit (rows m)) n c ps e)
    (rows' : List ρ) : ∃ p, fetch key encode decode limit rows' e = some p := by
  have henc : e = none ∨ ∃ r, e = some (encode r) := by
    induction h with
    | last hp =>
      obtain ⟨cursor, -, rfl⟩ := fetch_eq_some_iff.1 hp
      cases hnext : (page key encode limit _ cursor).next with
      | none => exact .inl rfl
      | some c =>
        obtain ⟨r, rfl⟩ := exists_encode_of_next hnext
        exact .inr ⟨r, rfl⟩
    | more _ _ _ ih => exact ih
  rcases henc with rfl | ⟨r, rfl⟩
  · exact ⟨_, fetch_eq_some_iff.2 ⟨none, rfl, rfl⟩⟩
  · exact ⟨_, fetch_eq_some_iff.2 ⟨some (key r), by simp [cursorKey, hdecode], rfl⟩⟩

end Chain

/-! ## A state that does not change -/

section Constant

variable {encode : ρ → C} {decode : C → Option κ} {limit : ℕ}

/-- The number of pages for `m` rows: one when there is none. -/
def pageCount (limit m : ℕ) : ℕ := max 1 (m ⌈/⌉ limit)

theorem pageCount_of_le {m : ℕ} (hlimit : 1 ≤ limit) (h : m ≤ limit) : pageCount limit m = 1 := by
  have : m ⌈/⌉ limit ≤ 1 := by rwa [ceilDiv_le_iff_le_mul (by omega), mul_one]
  rw [pageCount, max_eq_left this]

theorem pageCount_add {m : ℕ} (hlimit : 1 ≤ limit) (hm : 1 ≤ m) :
    pageCount limit (limit + m) = pageCount limit m + 1 := by
  have hadd : (limit + m) ⌈/⌉ limit = m ⌈/⌉ limit + 1 := by
    simp only [Nat.ceilDiv_eq_add_pred_div]
    rw [show limit + m + limit - 1 = m + limit - 1 + limit by omega, Nat.add_div_right _ hlimit]
  have hone : 1 ≤ m ⌈/⌉ limit := by
    rw [Nat.one_le_iff_ne_zero, Nat.ceilDiv_eq_add_pred_div]
    have := Nat.div_pos (a := m + limit - 1) (b := limit) (by omega) (by omega)
    omega
  rw [pageCount, pageCount, hadd]
  omega

/-- What is below the last row of a page is what the page leaves. -/
theorem length_below_last {rows : List ρ} (hnodup : (rows.map key).Nodup) {cursor : Option κ}
    {first rest : List ρ} {last : ρ} (hbelow : below key rows cursor = first ++ last :: rest) :
    (below key rows (some (key last))).length = rest.length := by
  have hpair := below_decreasing hnodup cursor
  have hnodup' := (below_decreasing hnodup (some (key last))).imp fun h => ne_of_gt h
  rw [hbelow, List.append_cons, List.map_append, List.pairwise_append] at hpair
  obtain ⟨hleft, hright, hcross⟩ := hpair
  have hlast : ∀ r ∈ first ++ [last], key last ≤ key r := by
    intro r hr
    rw [List.map_append, List.pairwise_append] at hleft
    rcases List.mem_append.1 hr with hr | hr
    · exact (hleft.2.2 _ (List.mem_map_of_mem hr) _ (by simp)).le
    · rw [List.mem_singleton.1 hr]
  have hrest := hright.imp fun h => ne_of_gt h
  refine List.Perm.length_eq ((List.perm_ext_iff_of_nodup (List.Nodup.of_map key hnodup')
    (List.Nodup.of_map key hrest)).2 fun r => ?_)
  have hmem : r ∈ below key rows cursor ↔ r ∈ first ++ [last] ∨ r ∈ rest := by
    rw [hbelow, List.append_cons, List.mem_append]
  have hat : cursor.all (fun c => key last < c) = true :=
    (mem_below.1 (hbelow ▸ (by simp : last ∈ first ++ last :: rest))).2
  rw [mem_below] at hmem ⊢
  simp only [Option.all_some, decide_eq_true_eq]
  constructor
  · rintro ⟨hr, hlt⟩
    have hall : cursor.all (fun c => key r < c) = true := by
      cases cursor with
      | none => rfl
      | some c =>
        simp only [Option.all_some, decide_eq_true_eq] at hat ⊢
        exact hlt.trans hat
    rcases hmem.1 ⟨hr, hall⟩ with hr | hr
    · exact absurd hlt (not_lt.2 (hlast r hr))
    · exact hr
  · intro hr
    exact ⟨(hmem.2 (.inr hr)).1, hcross _ (by simp) _ (List.mem_map_of_mem hr)⟩

variable (hdecode : ∀ r, decode (encode r) = some (key r)) (hlimit : 1 ≤ limit) {rows : List ρ}
  (hnodup : (rows.map key).Nodup)

include hdecode hlimit hnodup

/-- A chain that ends has as many pages as the rows below its cursor take. -/
theorem chain_length_eq {n : ℕ} {c e : Option C} {ps : List (Page ρ C)} {cursor : Option κ}
    (h : Chain (fun _ => fetch key encode decode limit rows) n c ps e) (he : e = none)
    (hcursor : cursorKey decode c = some cursor) :
    ps.length = pageCount limit (below key rows cursor).length := by
  induction h generalizing cursor with
  | @last n c p hp =>
    obtain ⟨cursor', hcursor', rfl⟩ := fetch_eq_some_iff.1 hp
    obtain rfl : cursor = cursor' := Option.some.inj (hcursor.symm.trans hcursor')
    rcases page_cases encode hlimit rows cursor with ⟨hle, -⟩ | ⟨first, last, rest, -, -, -, hpage⟩
    · rw [pageCount_of_le hlimit hle]
      rfl
    · rw [hpage] at he
      cases he
  | @more n c e c' p ps hp hnext hchain ih =>
    obtain ⟨cursor', hcursor', rfl⟩ := fetch_eq_some_iff.1 hp
    obtain rfl : cursor = cursor' := Option.some.inj (hcursor.symm.trans hcursor')
    rcases page_cases encode hlimit rows cursor with ⟨-, hpage⟩ |
      ⟨first, last, rest, hbelow, hne, hfirst, hpage⟩
    · rw [hpage] at hnext
      cases hnext
    · rw [hpage] at hnext
      obtain rfl : encode last = c' := Option.some.inj hnext
      have hcursor' : cursorKey decode (some (encode last)) = some (some (key last)) := by
        simp [cursorKey, hdecode]
      have hlen := ih he hcursor'
      rw [length_below_last hnodup hbelow] at hlen
      have hpos : 1 ≤ rest.length := List.length_pos_iff.2 hne
      rw [hbelow, List.length_cons, hlen, ← pageCount_add hlimit hpos]
      congr 1
      simp only [List.length_append, List.length_cons]
      omega

/-- The chain ends. -/
theorem exists_chain (n : ℕ) {c : Option C} {cursor : Option κ}
    (hcursor : cursorKey decode c = some cursor) :
    ∃ ps, Chain (fun _ => fetch key encode decode limit rows) n c ps none := by
  generalize hm : (below key rows cursor).length = m
  induction m using Nat.strong_induction_on generalizing n c cursor with
  | _ m ih =>
    have hfetch : fetch key encode decode limit rows c = some (page key encode limit rows cursor) :=
      fetch_eq_some_iff.2 ⟨cursor, hcursor, rfl⟩
    rcases page_cases encode hlimit rows cursor with ⟨-, hpage⟩ |
      ⟨first, last, rest, hbelow, -, hfirst, hpage⟩
    · have hlast : Chain (fun _ => fetch key encode decode limit rows) n c
          [page key encode limit rows cursor] (page key encode limit rows cursor).next := .last hfetch
      rw [hpage] at hlast
      exact ⟨_, hlast⟩
    · have hlen := length_below_last hnodup hbelow
      have hlt : rest.length < m := by
        rw [← hm, hbelow]
        simp only [List.length_append, List.length_cons]
        omega
      have hcursor' : cursorKey decode (some (encode last)) = some (some (key last)) := by
        simp [cursorKey, hdecode]
      obtain ⟨ps, hps⟩ := ih _ hlt (n + 1) hcursor' hlen
      exact ⟨_, .more hfetch (by rw [hpage]) hps⟩

end Constant

end Foundations.Keyset
