import Mathlib.Logic.Function.Basic
import Mathlib.Data.List.Basic

/-!
# Labelled machines and their runs

A machine is a start state with a partial step function: an action either is not enabled in a
state, or leads to one next state. Every choice of the environment (which transaction moves,
what the clock reads, what a peer answers) is part of the action, so a set of interleavings is
the set of action sequences.

* `Steps ok s s'`: `s'` is reached from `s` by steps that all meet `ok`, a condition on the
  action and on the state it is taken in. `Reachable` is the unconditional case from the start.
* `Steps.invariant`: what holds first and survives every step holds after every run.
* `run` executes a list of actions; `exists_steps_of_run` turns an execution into a run. `runIf`
  checks each action in the state that it is taken in; `exists_steps_of_runIf` turns an execution
  that passes the checks into a run under the condition that they decide.
-/

namespace Foundations

/-- A start state and a partial step function. -/
structure Machine (σ α : Type*) where
  init : σ
  step : α → σ → Option σ

namespace Machine

variable {σ α : Type*} (M : Machine σ α)

/-- Runs all of whose steps meet the condition `ok`. -/
inductive Steps (ok : α → σ → Prop) : σ → σ → Prop
  | refl (s : σ) : Steps ok s s
  | tail {s s' s'' : σ} {a : α} :
      Steps ok s s' → ok a s' → M.step a s' = some s'' → Steps ok s s''

/-- States reached from the start by any run. -/
def Reachable (s : σ) : Prop := M.Steps (fun _ _ => True) M.init s

/-- States reached from the start by a run whose steps all meet `ok`. -/
def ReachableIf (ok : α → σ → Prop) (s : σ) : Prop := M.Steps ok M.init s

variable {M} {ok ok' : α → σ → Prop} {s s' s'' : σ}

namespace Steps

theorem trans (h : M.Steps ok s s') (h' : M.Steps ok s' s'') : M.Steps ok s s'' := by
  induction h' with
  | refl => exact h
  | tail _ hok hs ih => exact .tail ih hok hs

theorem mono (h : M.Steps ok s s') (himp : ∀ a s, ok a s → ok' a s) : M.Steps ok' s s' := by
  induction h with
  | refl => exact .refl _
  | tail _ hok hs ih => exact .tail ih (himp _ _ hok) hs

/-- **The invariant rule.** -/
theorem invariant {P : σ → Prop} (h : M.Steps ok s s') (h₀ : P s)
    (hstep : ∀ a s s', P s → ok a s → M.step a s = some s' → P s') : P s' := by
  induction h with
  | refl => exact h₀
  | tail _ hok hs ih => exact hstep _ _ _ ih hok hs

end Steps

theorem ReachableIf.reachable (h : M.ReachableIf ok s) : M.Reachable s :=
  Steps.mono h fun _ _ _ => trivial

/-- The invariant rule from the start state. -/
theorem Reachable.invariant {P : σ → Prop} (h : M.Reachable s) (h₀ : P M.init)
    (hstep : ∀ a s s', P s → M.step a s = some s' → P s') : P s :=
  Steps.invariant h h₀ fun a s s' hP _ hs => hstep a s s' hP hs

/-- The invariant rule from the start state, for runs that meet a condition. -/
theorem ReachableIf.invariant {P : σ → Prop} (h : M.ReachableIf ok s) (h₀ : P M.init)
    (hstep : ∀ a s s', P s → ok a s → M.step a s = some s' → P s') : P s :=
  Steps.invariant h h₀ hstep

/-! ## Executions -/

variable (M)

/-- Take the actions of a list in order. -/
def run : List α → σ → Option σ
  | [], s => some s
  | a :: l, s => (M.step a s).bind (run l)

variable {M}

theorem steps_of_run : ∀ {l : List α} {s s' : σ}, (∀ a ∈ l, ∀ s, ok a s) → M.run l s = some s' →
    M.Steps ok s s'
  | [], s, s', _, h => by
    obtain rfl := Option.some.inj h
    exact .refl s
  | a :: l, s, s', hok, h => by
    simp only [run, Option.bind_eq_some_iff] at h
    obtain ⟨s₁, h₁, h₂⟩ := h
    rw [List.forall_mem_cons] at hok
    exact (Steps.tail (.refl s) (hok.1 s) h₁).trans (steps_of_run hok.2 h₂)

/-- An execution that ends in a state with the decidable property `p` gives a run to such a
state. -/
theorem exists_reachable_of_run (ok : α → σ → Prop) {l : List α} {p : σ → Bool}
    (hok : ∀ a ∈ l, ∀ s, ok a s)
    (h : (M.run l M.init).map p = some true) : ∃ s, M.ReachableIf ok s ∧ p s = true := by
  simp only [Option.map_eq_some_iff] at h
  obtain ⟨s, hs, hp⟩ := h
  exact ⟨s, steps_of_run hok hs, hp⟩

/-- The same for a property of an earlier and a later state of one execution. -/
theorem exists_steps_of_run (ok : α → σ → Prop) {l l' : List α} {p : σ → σ → Bool}
    (hok : ∀ a ∈ l ++ l', ∀ s, ok a s)
    (h : ((M.run l M.init).bind fun s => (M.run l' s).map (p s)) = some true) :
    ∃ s s', M.ReachableIf ok s ∧ M.Steps ok s s' ∧ p s s' = true := by
  simp only [Option.bind_eq_some_iff, Option.map_eq_some_iff] at h
  obtain ⟨s, hs, s', hs', hp⟩ := h
  rw [List.forall_mem_append] at hok
  exact ⟨s, s', steps_of_run hok.1 hs, steps_of_run hok.2 hs', hp⟩

/-! ## Executions that are checked -/

variable (M) in
/-- Take the actions of a list in order, as long as each passes the check. -/
def runIf (check : α → σ → Bool) : List α → σ → Option σ
  | [], s => some s
  | a :: l, s => if check a s then (M.step a s).bind (runIf check l) else none

variable {check : α → σ → Bool}

theorem steps_of_runIf (hok : ∀ a s, check a s = true → ok a s) : ∀ {l : List α} {s s' : σ},
    M.runIf check l s = some s' → M.Steps ok s s'
  | [], s, s', h => by
    obtain rfl := Option.some.inj h
    exact .refl s
  | a :: l, s, s', h => by
    simp only [runIf, Option.ite_none_right_eq_some, Option.bind_eq_some_iff] at h
    obtain ⟨hcheck, s₁, h₁, h₂⟩ := h
    exact (Steps.tail (.refl s) (hok a s hcheck) h₁).trans (steps_of_runIf hok h₂)

theorem exists_reachable_of_runIf (hok : ∀ a s, check a s = true → ok a s) {l : List α}
    {p : σ → Bool} (h : (M.runIf check l M.init).map p = some true) :
    ∃ s, M.ReachableIf ok s ∧ p s = true := by
  simp only [Option.map_eq_some_iff] at h
  obtain ⟨s, hs, hp⟩ := h
  exact ⟨s, steps_of_runIf hok hs, hp⟩

/-- The same for a property of an earlier and a later state of one execution. -/
theorem exists_steps_of_runIf (hok : ∀ a s, check a s = true → ok a s) {l l' : List α}
    {p : σ → σ → Bool}
    (h : ((M.runIf check l M.init).bind fun s => (M.runIf check l' s).map (p s)) = some true) :
    ∃ s s', M.ReachableIf ok s ∧ M.Steps ok s s' ∧ p s s' = true := by
  simp only [Option.bind_eq_some_iff, Option.map_eq_some_iff] at h
  obtain ⟨s, hs, s', hs', hp⟩ := h
  exact ⟨s, s', steps_of_runIf hok hs, steps_of_runIf hok hs', hp⟩

end Machine

end Foundations
