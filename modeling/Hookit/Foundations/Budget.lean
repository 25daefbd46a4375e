import Hookit.Foundations.Isolation

/-!
# Budgets of a service

What the actions of a run cost in all, if every action is paid for out of a potential of the state
and of what it brings in: at most the potential of the first state and what all actions bring in
(`Meets.spent_add_le`). A run in which each action costs something while there is potential left
uses it up (`Meets.eq_zero_of_le_length`).
-/

namespace Foundations.Service

variable {σ α ο : Type*} (S : Service σ α ο)

/-- What the actions of a run add up to. -/
def spent (cost : α → σ → ℕ) : List α → σ → ℕ
  | [], _ => 0
  | a :: l, s => cost a s + spent cost l (S.serve a s).2

variable {S} {ok : α → σ → Prop} {potential : σ → ℕ} {cost income : α → σ → ℕ}
  {s : σ} {l : List α}

theorem spent_mul_add (c : ℕ) (f g : α → σ → ℕ) :
    S.spent (fun a s => c * f a s + g a s) l s = c * S.spent f l s + S.spent g l s := by
  induction l generalizing s with
  | nil => rfl
  | cons a l ih =>
    simp only [spent, ih, Nat.mul_add]
    omega

/-- **The budget rule.** -/
theorem Meets.spent_add_le (Inv : σ → Prop) (hkept : ∀ {a s}, Inv s → ok a s → Inv (S.serve a s).2)
    (hstep : ∀ {a s}, Inv s → ok a s →
      cost a s + potential (S.serve a s).2 ≤ potential s + income a s)
    (h : S.Meets ok l s) (hs : Inv s) :
    S.spent cost l s + potential (S.exec l s) ≤ potential s + S.spent income l s := by
  induction l generalizing s with
  | nil => simp [spent, exec]
  | cons a l ih =>
    have hfirst := hstep hs h.1
    have hrest := ih h.2 (hkept hs h.1)
    simp only [spent, exec]
    omega

/-- **Using up the potential**: it is gone after as many actions as it was. -/
theorem Meets.eq_zero_of_le_length (Inv : σ → Prop) (potential : σ → ℕ)
    (hkept : ∀ {a s}, Inv s → ok a s → Inv (S.serve a s).2)
    (hstep : ∀ {a s}, Inv s → ok a s → potential (S.serve a s).2 ≤ potential s ∧
      (potential s ≠ 0 → potential (S.serve a s).2 < potential s))
    (h : S.Meets ok l s) (hs : Inv s) (hl : potential s ≤ l.length) :
    potential (S.exec l s) = 0 := by
  induction l generalizing s with
  | nil => exact Nat.le_zero.1 hl
  | cons a l ih =>
    obtain ⟨hle, hlt⟩ := hstep hs h.1
    refine ih h.2 (hkept hs h.1) ?_
    rw [List.length_cons] at hl
    by_cases hzero : potential s = 0
    · omega
    · have := hlt hzero
      omega

end Foundations.Service
