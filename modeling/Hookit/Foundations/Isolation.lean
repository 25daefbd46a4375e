import Mathlib.Data.List.Basic

/-!
# A shared store and a private one

A service answers actions from one state that several users share. `Private` says of one user that
the shared state holds a private one (`view`), that every action comes to the private state as some
action or not at all (`share`), and that an action of the user is answered from it alone.

`Private.run`: over a whole run, the user gets the answers that the private state gives to its share
of the actions. So the user cannot tell two runs apart in which its share is the same
(`Private.answers_eq`). Two services on one state make one, and the rules for a user compose
(`Private.sum`).
-/

namespace Foundations

/-- An action is answered, and changes the state. -/
structure Service (σ α ο : Type*) where
  serve : α → σ → ο × σ

namespace Service

variable {σ α β ο π : Type*} (S : Service σ α ο)

/-- Two services on one state. -/
def sum (T : Service σ β π) : Service σ (α ⊕ β) (ο ⊕ π) :=
  ⟨Sum.elim (fun a s => (.inl (S.serve a s).1, (S.serve a s).2))
    fun b s => (.inr (T.serve b s).1, (T.serve b s).2)⟩

/-- The state after some actions. -/
def exec : List α → σ → σ
  | [], s => s
  | a :: l, s => exec l (S.serve a s).2

/-- The answers to the actions of a user. -/
def answers (mine : α → σ → Bool) : List α → σ → List ο
  | [], _ => []
  | a :: l, s =>
    if mine a s then (S.serve a s).1 :: answers mine l (S.serve a s).2
    else answers mine l (S.serve a s).2

/-- What actions are to a user. -/
def shares (share : α → σ → Option α) : List α → σ → List α
  | [], _ => []
  | a :: l, s => (share a s).toList ++ shares share l (S.serve a s).2

/-- Every action meets a condition on the state that it is taken in. -/
def Meets (ok : α → σ → Prop) : List α → σ → Prop
  | [], _ => True
  | a :: l, s => ok a s ∧ Meets ok l (S.serve a s).2

variable {S} {ok : α → σ → Prop} {s s' : σ} {l l' : List α}

theorem exec_append : S.exec (l ++ l') s = S.exec l' (S.exec l s) := by
  induction l generalizing s with
  | nil => rfl
  | cons a l ih => exact ih

theorem shares_append {share : α → σ → Option α} :
    S.shares share (l ++ l') s = S.shares share l s ++ S.shares share l' (S.exec l s) := by
  induction l generalizing s with
  | nil => rfl
  | cons a l ih => rw [List.cons_append, shares, shares, ih, List.append_assoc]; rfl

theorem meets_append : S.Meets ok (l ++ l') s ↔ S.Meets ok l s ∧ S.Meets ok l' (S.exec l s) := by
  induction l generalizing s with
  | nil => exact ⟨fun h => ⟨trivial, h⟩, And.right⟩
  | cons a l ih =>
    rw [List.cons_append, Meets, Meets, ih, and_assoc]
    rfl

theorem Meets.mono {ok' : α → σ → Prop} (h : S.Meets ok l s)
    (himp : ∀ {a s}, ok a s → ok' a s) : S.Meets ok' l s := by
  induction l generalizing s with
  | nil => trivial
  | cons a l ih => exact ⟨himp h.1, ih h.2⟩

/-- **The invariant rule** for services. -/
theorem Meets.invariant {P : σ → Prop} (hstep : ∀ {a s}, P s → ok a s → P (S.serve a s).2)
    (h : S.Meets ok l s) (hs : P s) : P (S.exec l s) := by
  induction l generalizing s with
  | nil => exact hs
  | cons a l ih => exact ih h.2 (hstep hs h.1)

/-- The user whose actions are `mine` has a private store in the shared one. -/
structure Private (S : Service σ α ο) (ok : α → σ → Prop) (Inv : σ → Prop)
    (mine : α → σ → Bool) (share : α → σ → Option α) (view : σ → σ) : Prop where
  kept {a : α} {s : σ} (hs : Inv s) (ha : ok a s) : Inv (S.serve a s).2
  /-- An action that does not come to the user leaves the private store alone. -/
  hidden {a : α} {s : σ} (hs : Inv s) (ha : ok a s) (hshare : share a s = none) :
    mine a s = false ∧ view (S.serve a s).2 = view s
  /-- Another one does to the private store what the share does. -/
  shared {a b : α} {s : σ} (hs : Inv s) (ha : ok a s) (hshare : share a s = some b) :
    mine b (view s) = mine a s ∧ view (S.serve a s).2 = (S.serve b (view s)).2 ∧
      (mine a s = true → (S.serve a s).1 = (S.serve b (view s)).1)

namespace Private

variable {Inv : σ → Prop} {mine : α → σ → Bool} {share : α → σ → Option α} {view : σ → σ}

/-- **The shared store serves a user as a private store would** with the user's share of the
actions. -/
theorem run (h : Private S ok Inv mine share view) (hs : Inv s) (hl : S.Meets ok l s) :
    S.answers mine l s = S.answers mine (S.shares share l s) (view s) ∧
      view (S.exec l s) = S.exec (S.shares share l s) (view s) := by
  induction l generalizing s with
  | nil => exact ⟨rfl, rfl⟩
  | cons a l ih =>
    obtain ⟨hanswers, hexec⟩ := ih (h.kept hs hl.1) hl.2
    cases hshare : share a s with
    | none =>
      obtain ⟨hmine, hview⟩ := h.hidden hs hl.1 hshare
      rw [hview] at hanswers hexec
      simp only [answers, exec, shares, hmine, hshare, Option.toList_none, List.nil_append,
        Bool.false_eq_true, if_false]
      exact ⟨hanswers, hexec⟩
    | some b =>
      obtain ⟨hmine, hview, hanswer⟩ := h.shared hs hl.1 hshare
      rw [hview] at hanswers hexec
      simp only [answers, exec, shares, hmine, hshare, Option.toList_some, List.singleton_append]
      refine ⟨?_, hexec⟩
      cases hm : mine a s with
      | false => exact hanswers
      | true => exact congrArg₂ List.cons (hanswer hm) hanswers

/-- **Noninterference**: runs with the same share of the actions from stores that hold the same
private one give a user the same answers. -/
theorem answers_eq (h : Private S ok Inv mine share view) (hs : Inv s) (hs' : Inv s')
    (hl : S.Meets ok l s) (hl' : S.Meets ok l' s') (hview : view s = view s')
    (hshares : S.shares share l s = S.shares share l' s') :
    S.answers mine l s = S.answers mine l' s' ∧ view (S.exec l s) = view (S.exec l' s') := by
  obtain ⟨hanswers, hexec⟩ := h.run hs hl
  obtain ⟨hanswers', hexec'⟩ := h.run hs' hl'
  rw [hanswers, hanswers', hexec, hexec', hview, hshares]
  exact ⟨rfl, rfl⟩

/-- **A user of two services** has a private store for both. -/
theorem sum {T : Service σ β π} {okT : β → σ → Prop} {mineT : β → σ → Bool}
    {shareT : β → σ → Option β} (h : Private S ok Inv mine share view)
    (hT : Private T okT Inv mineT shareT view) :
    Private (S.sum T) (Sum.elim ok okT) Inv (Sum.elim mine mineT)
      (Sum.elim (fun a s => (share a s).map .inl) fun b s => (shareT b s).map .inr) view := by
  refine ⟨fun {a s} hs ha => ?kept, fun {a s} hs ha hshare => ?hidden,
    fun {a b s} hs ha hshare => ?shared⟩
  case kept =>
    cases a with
    | inl a => exact h.kept hs ha
    | inr b => exact hT.kept hs ha
  case hidden =>
    cases a with
    | inl a => exact h.hidden hs ha (Option.map_eq_none_iff.1 hshare)
    | inr b => exact hT.hidden hs ha (Option.map_eq_none_iff.1 hshare)
  case shared =>
    cases a with
    | inl a =>
      obtain ⟨a', ha', rfl⟩ := Option.map_eq_some_iff.1 hshare
      obtain ⟨hmine, hview, hanswer⟩ := h.shared hs ha ha'
      exact ⟨hmine, hview, fun hm => congrArg Sum.inl (hanswer hm)⟩
    | inr b' =>
      obtain ⟨b', hb', rfl⟩ := Option.map_eq_some_iff.1 hshare
      obtain ⟨hmine, hview, hanswer⟩ := hT.shared hs ha hb'
      exact ⟨hmine, hview, fun hm => congrArg Sum.inr (hanswer hm)⟩

end Private

end Service

end Foundations
