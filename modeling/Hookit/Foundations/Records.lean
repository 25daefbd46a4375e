import Hookit.Foundations.Isolation

/-!
# What a run writes down

A run writes down an event for some of its actions, from what they were and from how they were
answered (`log`). `Meets.log_invariant` is the rule for what holds between the events so far and the
state.
-/

namespace Foundations.Service

variable {σ α ο ε : Type*} (S : Service σ α ο)

/-- The events of a run, in their order. -/
def log (event : α → ο → Option ε) : List α → σ → List ε
  | [], _ => []
  | a :: l, s => (event a (S.serve a s).1).toList ++ log event l (S.serve a s).2

variable {S} {event : α → ο → Option ε} {ok : α → σ → Prop} {s : σ} {l : List α}

/-- **The invariant rule** for events and state. -/
theorem Meets.log_invariant {P : List ε → σ → Prop}
    (hstep : ∀ {es a s}, P es s → ok a s →
      P (es ++ (event a (S.serve a s).1).toList) (S.serve a s).2)
    (h : S.Meets ok l s) {es : List ε} (hs : P es s) :
    P (es ++ S.log event l s) (S.exec l s) := by
  induction l generalizing s es with
  | nil =>
    rw [log, List.append_nil]
    exact hs
  | cons a l ih =>
    rw [log, ← List.append_assoc]
    exact ih h.2 (hstep hs h.1)

end Foundations.Service
