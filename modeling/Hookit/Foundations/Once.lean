import Mathlib.Data.List.Nodup
import Mathlib.Data.List.Perm.Basic

/-!
# Processing each key once

A receiver of keyed messages that processes a message only if its key is new (`Once.receive`).
However often and in whatever order messages arrive, it does the same as processing the list of
first arrivals (`Once.foldl_receive`), and two arrival sequences of the same messages have the
same first arrivals up to order (`Once.firsts_perm`). So what does not depend on the order of
processing does not depend on the order and the repetitions of arrival either.
-/

namespace Foundations

/-- A state with the keys processed so far. -/
structure Once (κ σ : Type*) where
  seen : List κ
  state : σ

namespace Once

variable {κ α σ : Type*} [DecidableEq κ]

/-- Process a message if its key is new. -/
def receive (f : σ → α → σ) (S : Once κ σ) (m : κ × α) : Once κ σ :=
  if m.1 ∈ S.seen then S else ⟨S.seen ++ [m.1], f S.state m.2⟩

/-- The messages that are processed, where the keys `seen` have been. -/
def firsts : List κ → List (κ × α) → List (κ × α)
  | _, [] => []
  | seen, m :: l => if m.1 ∈ seen then firsts seen l else m :: firsts (seen ++ [m.1]) l

/-- **Receiving a sequence is processing its first arrivals.** -/
theorem foldl_receive (f : σ → α → σ) (l : List (κ × α)) (S : Once κ σ) :
    l.foldl (receive f) S = ⟨S.seen ++ (firsts S.seen l).map Prod.fst,
      ((firsts S.seen l).map Prod.snd).foldl f S.state⟩ := by
  induction l generalizing S with
  | nil => simp [firsts]
  | cons m l ih =>
    rw [List.foldl_cons, ih, firsts, receive]
    split_ifs with hm
    · rfl
    · simp

/-- The first arrivals arrive, and their keys are new. -/
theorem mem_of_mem_firsts {m : κ × α} {l : List (κ × α)} {seen : List κ} (h : m ∈ firsts seen l) :
    m ∈ l ∧ m.1 ∉ seen := by
  induction l generalizing seen with
  | nil => cases h
  | cons m' l ih =>
    rw [firsts] at h
    split_ifs at h with hm
    · exact ⟨List.mem_cons_of_mem _ (ih h).1, (ih h).2⟩
    · rcases List.mem_cons.1 h with rfl | h
      · exact ⟨List.mem_cons_self, hm⟩
      · obtain ⟨hmem, hnew⟩ := ih h
        exact ⟨List.mem_cons_of_mem _ hmem, fun hseen => hnew (List.mem_append_left _ hseen)⟩

/-- Each key is processed once. -/
theorem nodup_firsts (l : List (κ × α)) (seen : List κ) :
    ((firsts seen l).map Prod.fst).Nodup := by
  induction l generalizing seen with
  | nil => exact .nil
  | cons m l ih =>
    rw [firsts]
    split_ifs with hm
    · exact ih seen
    · refine List.nodup_cons.2 ⟨fun hmem => ?_, ih _⟩
      obtain ⟨m', hm', heq⟩ := List.mem_map.1 hmem
      have hnew := (mem_of_mem_firsts hm').2
      exact hnew (List.mem_append_right _ (List.mem_singleton.2 heq))

/-- Where equal keys carry equal messages, every message with a new key is processed. -/
theorem mem_firsts {l : List (κ × α)} (hfun : ∀ m ∈ l, ∀ m' ∈ l, m.1 = m'.1 → m = m')
    {seen : List κ} {m : κ × α} : m ∈ firsts seen l ↔ m ∈ l ∧ m.1 ∉ seen := by
  refine ⟨mem_of_mem_firsts, ?_⟩
  rintro ⟨hmem, hnew⟩
  induction l generalizing seen with
  | nil => cases hmem
  | cons m' l ih =>
    have hfun' : ∀ x ∈ l, ∀ y ∈ l, x.1 = y.1 → x = y := fun x hx y hy =>
      hfun x (List.mem_cons_of_mem _ hx) y (List.mem_cons_of_mem _ hy)
    rw [firsts]
    rcases eq_or_ne m m' with rfl | heq
    · rw [if_neg hnew]
      exact List.mem_cons_self
    · have htail := (List.mem_cons.1 hmem).resolve_left heq
      have hkey : m.1 ≠ m'.1 := fun h => heq (hfun m hmem m' List.mem_cons_self h)
      split_ifs with hm
      · exact ih hfun' htail hnew
      · refine List.mem_cons_of_mem _ (ih hfun' htail fun hseen => ?_)
        rcases List.mem_append.1 hseen with hseen | hseen
        · exact hnew hseen
        · exact hkey (List.mem_singleton.1 hseen)

/-- **Two sequences of the same messages have the same first arrivals**, up to order. -/
theorem firsts_perm {l l' : List (κ × α)} (hset : ∀ m, m ∈ l ↔ m ∈ l')
    (hfun : ∀ m ∈ l, ∀ m' ∈ l, m.1 = m'.1 → m = m') (seen : List κ) :
    (firsts seen l).Perm (firsts seen l') := by
  have hfun' : ∀ m ∈ l', ∀ m' ∈ l', m.1 = m'.1 → m = m' := fun m hm m' hm' =>
    hfun m ((hset m).2 hm) m' ((hset m').2 hm')
  refine (List.perm_ext_iff_of_nodup ((nodup_firsts l seen).of_map _)
    ((nodup_firsts l' seen).of_map _)).2 fun m => ?_
  rw [mem_firsts hfun, mem_firsts hfun', hset]

/-- Messages with different new keys are all processed, in their order. -/
theorem firsts_eq_self {l : List (κ × α)} {seen : List κ} (hnodup : (l.map Prod.fst).Nodup)
    (hnew : ∀ m ∈ l, m.1 ∉ seen) : firsts seen l = l := by
  induction l generalizing seen with
  | nil => rfl
  | cons m l ih =>
    obtain ⟨hm, hnodup⟩ := List.nodup_cons.1 hnodup
    rw [firsts, if_neg (hnew m List.mem_cons_self)]
    refine congrArg (m :: ·) (ih hnodup fun m' hm' hseen => ?_)
    rcases List.mem_append.1 hseen with hseen | hseen
    · exact hnew m' (List.mem_cons_of_mem _ hm') hseen
    · exact hm (List.mem_map.2 ⟨m', hm', List.mem_singleton.1 hseen⟩)

end Once

end Foundations
