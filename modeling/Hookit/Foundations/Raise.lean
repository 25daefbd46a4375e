import Mathlib.Data.List.Forall2

/-!
# Computations that may raise

When a computation in `Except` returns: the rules for a sequence, a map, a guard and a missing
result, each naming the intermediate value.
-/

namespace Foundations

universe u

variable {ε : Type} {α β : Type u}

/-- A result, or the exception that is raised for the lack of one. -/
def orRaise (err : ε) : Option α → Except ε α
  | some a => .ok a
  | none => .error err

theorem orRaise_eq_ok_iff {err : ε} {o : Option α} {a : α} :
    orRaise err o = .ok a ↔ o = some a := by
  cases o <;> simp [orRaise]

theorem ok_bind (a : α) (f : α → Except ε β) : (.ok a : Except ε α) >>= f = f a := rfl

/-- **A sequence returns if both parts do.** -/
theorem bind_eq_ok_iff {x : Except ε α} {f : α → Except ε β} {b : β} :
    x >>= f = .ok b ↔ ∃ a, x = .ok a ∧ f a = .ok b := by
  cases x with
  | error err => simp [bind, Except.bind]
  | ok a => simp [bind, Except.bind]

theorem map_eq_ok_iff {x : Except ε α} {f : α → β} {b : β} :
    f <$> x = .ok b ↔ ∃ a, x = .ok a ∧ f a = b := by
  cases x with
  | error err => simp [Functor.map, Except.map]
  | ok a => simp [Functor.map, Except.map]

theorem pure_eq_ok_iff {a b : α} : (pure a : Except ε α) = .ok b ↔ a = b := by
  simp [pure, Except.pure]

/-- **A loop returns what its steps return.** -/
theorem mapM_eq_ok_iff {f : α → Except ε β} : ∀ {l : List α} {r : List β},
    l.mapM f = .ok r ↔ List.Forall₂ (fun a b => f a = .ok b) l r
  | [], r => by
    rw [List.mapM_nil, pure_eq_ok_iff, List.forall₂_nil_left_iff]
    exact eq_comm
  | a :: l, r => by
    simp only [List.mapM_cons, bind_eq_ok_iff, pure_eq_ok_iff, mapM_eq_ok_iff,
      List.forall₂_cons_left_iff]
    constructor
    · rintro ⟨b, hb, bs, hbs, rfl⟩
      exact ⟨b, bs, hb, hbs, rfl⟩
    · rintro ⟨b, bs, hb, hbs, rfl⟩
      exact ⟨b, hb, bs, hbs, rfl⟩

/-- Every result of a loop comes from one of its steps. -/
theorem exists_of_mem_mapM {f : α → Except ε β} {l : List α} {r : List β} (h : l.mapM f = .ok r)
    {b : β} (hb : b ∈ r) : ∃ a ∈ l, f a = .ok b := by
  rw [mapM_eq_ok_iff] at h
  induction h with
  | nil => cases hb
  | cons hab _ ih =>
    rcases List.mem_cons.1 hb with rfl | hb
    · exact ⟨_, List.mem_cons_self, hab⟩
    · obtain ⟨a, ha, hab⟩ := ih hb
      exact ⟨a, List.mem_cons_of_mem _ ha, hab⟩

theorem exists_mapM_eq_ok_iff {f : α → Except ε β} {l : List α} :
    (∃ r, l.mapM f = .ok r) ↔ ∀ a ∈ l, ∃ b, f a = .ok b := by
  simp only [mapM_eq_ok_iff]
  constructor
  · rintro ⟨r, hr⟩
    induction hr with
    | nil => simp
    | cons hb _ ih => exact List.forall_mem_cons.2 ⟨⟨_, hb⟩, ih⟩
  · intro h
    induction l with
    | nil => exact ⟨[], .nil⟩
    | cons a l ih =>
      obtain ⟨b, hb⟩ := h a (by simp)
      obtain ⟨r, hr⟩ := ih fun a ha => h a (by simp [ha])
      exact ⟨b :: r, .cons hb hr⟩

theorem toOption_eq_some_iff {x : Except ε α} {a : α} : x.toOption = some a ↔ x = .ok a := by
  cases x <;> simp [Except.toOption]

theorem mapError_eq_ok_iff {ε' : Type} {f : ε → ε'} {x : Except ε α} {a : α} :
    x.mapError f = .ok a ↔ x = .ok a := by
  cases x <;> simp [Except.mapError]

end Foundations
