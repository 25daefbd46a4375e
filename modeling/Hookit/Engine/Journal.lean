import Hookit.Engine.Invariant

/-!
# What the journal records

Conditions on the actions of a run become conditions on the histories of its dossiers
(`inv_of_reachableIf`): in a run without fast-forwards no delivery is locked, and in one in which
the bodies of 2xx answers to last attempts decode, all recorded ones did. `Timely` says that the
readings in the histories do not lie ahead of the clock.
-/

namespace Hookit.Engine

open Foundations

variable {π : Type} {lib : UrlLib} {cfg : Settings}

/-- The lifecycle dossiers all of whose transitions have the property. -/
def Recorded (cfg : Settings) (P : Transition → Prop) (d : DeliveryId) (D : Dossier) : Prop :=
  Lifecycle cfg d D ∧ ∀ tr ∈ D.history, P tr

theorem Recorded.new {P : Transition → Prop} (d : DeliveryId) (eventId : EventId)
    (endpointId : EndpointId) {now : Time} (hP : P (.created now)) :
    Recorded cfg P d (.new eventId endpointId now) :=
  ⟨.created eventId endpointId now, List.forall_mem_singleton.2 hP⟩

theorem Recorded.step {P : Transition → Prop} {d : DeliveryId} {D D' : Dossier} {tr : Transition}
    (h : Recorded cfg P d D) (hstep : Dossier.Step cfg d tr D D') (hP : P tr) :
    Recorded cfg P d D' := by
  refine ⟨h.1.step hstep, ?_⟩
  rw [hstep.spec.1]
  exact List.forall_mem_append.2 ⟨h.2, List.forall_mem_singleton.2 hP⟩

/-- **A property of the transitions that the actions of a run make is one of all transitions.** -/
theorem inv_of_reachableIf {ok : Act π → State π → Prop} {P : Transition → Prop}
    (hnew : ∀ now, P (.created now))
    (hok : ∀ a s d r tr, ok a s → Produces a s d r tr → P tr) {s : State π}
    (h : (engine lib cfg).ReachableIf ok s) : Inv (Recorded cfg P) s :=
  h.invariant inv_init fun a s _ hinv ha hstep =>
    hinv.move (move_of_step hstep) (fun _ _ _ _ _ d e ep => .new d e ep (hnew _))
      fun _ _ _ _ hD hprod hstep => hD.step hstep (hok a s _ _ _ ha hprod)

/-! ## The kinds of runs -/

/-- The action is not a fast-forward's. -/
def NoFastForward (a : Act π) (_ : State π) : Prop := ∀ t worker d, a ≠ .lock t worker d

/-- Without fast-forwards no transition is a lock. -/
theorem not_locked_of_reachableIf {s : State π} (h : (engine lib cfg).ReachableIf NoFastForward s) :
    Inv (Recorded cfg (· ≠ .locked)) s := by
  refine inv_of_reachableIf (fun _ => nofun) (fun a s d r tr hok hprod heq => ?_) h
  subst heq
  obtain ⟨t, worker, ha⟩ := hprod
  exact hok t worker d ha

/-- The action is not a 2xx answer to a last attempt whose body does not decode. -/
def Decodes (cfg : Settings) (a : Act π) (s : State π) : Prop :=
  ∀ t tx job d post r status message durationMs now draw,
    a = .answer t (.undecodable status message) durationMs now draw → Is2xx status →
    s.txs t = .running tx → tx.phase = .posting job d post →
    s.deliveries.visible t d = some r → (r.attemptCount + 1 : ℕ) < cfg.maxDeliveryAttempts

/-- In a run in which the bodies of all such answers decode, so do those of the recorded ones. -/
theorem decodes_of_reachableIf {s : State π} (h : (engine lib cfg).ReachableIf (Decodes cfg) s) :
    Inv (Recorded cfg (Transition.Decodes cfg)) s := by
  refine inv_of_reachableIf (fun _ => nofun) (fun a s d r tr hok hprod => ?_) h
  rintro n status message now rfl h2
  obtain ⟨rfl, -, t, tx, job, post, durationMs, draw, ha, ht, hphase, hheld⟩ := hprod
  exact hok t tx job d post r status message durationMs now draw ha h2 ht hphase
    (Table.visible_of_held hheld)

/-! ## Readings of the clock -/

/-- The transition's reading is not ahead of the clock. -/
def ReadBy (clock : Time) (tr : Transition) : Prop :=
  ∀ now, Lifecycle.pendingAt tr = some now → now ≤ clock

/-- No reading lies ahead of the clock. -/
structure Timely (cfg : Settings) (s : State π) : Prop where
  dossiers : Inv (Recorded cfg (ReadBy s.clock)) s
  ingesting : ∀ t tx now, s.txs t = .running tx → tx.phase = .ingesting now → now ≤ s.clock

theorem clock_le_of_move {a : Act π} {s s' : State π} (hmove : Move lib cfg a s s') :
    s.clock ≤ s'.clock := by
  cases hmove with
  | advance hnow => exact hnow
  | _ => exact le_refl s.clock

theorem Timely.ingesting_of_move {a : Act π} {s s' : State π} (h : Timely cfg s)
    (hmove : Move lib cfg a s s') {t : Tid} {tx : Tx} {now : Time} (ht : s'.txs t = .running tx)
    (hphase : tx.phase = .ingesting now) : now ≤ s.clock := by
  cases hmove with
  | advance hnow => exact h.ingesting t tx now ht hphase
  | beginIngest ht' hnow =>
    rcases State.running_put.1 ht with ⟨-, rfl⟩ | ⟨-, ht⟩
    · obtain rfl := Phase.ingesting.inj hphase
      exact hnow
    · exact h.ingesting t tx now ht hphase
  | insertDelivery ht' hphase' hheld hrow =>
    rcases State.running_put.1 ht with ⟨-, rfl⟩ | ⟨-, ht⟩
    · exact h.ingesting _ _ now ht' hphase
    · exact h.ingesting t tx now ht hphase
  | commit ht' hfinished => exact h.ingesting t tx now (State.running_commit.1 ht).2 hphase
  | abort htid ht' => exact h.ingesting t tx now (State.running_rollback.1 ht).2 hphase
  | post ht' hphase' hnext hr hendpoint hevent hprepare =>
    rcases (State.running_put (T := s.deliveries)).1 ht with ⟨-, rfl⟩ | ⟨-, ht⟩
    · cases hphase
    · exact h.ingesting t tx now ht hphase
  | _ =>
    rcases State.running_put.1 ht with ⟨-, rfl⟩ | ⟨-, ht⟩
    · cases hphase
    · exact h.ingesting t tx now ht hphase

theorem Timely.move {a : Act π} {s s' : State π} (h : Timely cfg s) (hmove : Move lib cfg a s s') :
    Timely cfg s' := by
  have hclock := clock_le_of_move hmove
  have hmono : Inv (Recorded cfg (ReadBy s'.clock)) s :=
    h.dossiers.mono fun d D hD => ⟨hD.1, fun tr htr now hnow => (hD.2 tr htr now hnow).trans hclock⟩
  refine ⟨hmono.move hmove (fun t tx now ht hphase d e ep => ?_) fun d tr D D' hD hprod hstep => ?_,
    fun t tx now ht hphase => (h.ingesting_of_move hmove ht hphase).trans hclock⟩
  · refine .new d e ep fun now' heq => ?_
    obtain rfl := Option.some.inj heq
    exact (h.ingesting t tx _ ht hphase).trans hclock
  · refine hD.step hstep fun now heq => ?_
    cases tr with
    | created now' => exact absurd hprod id
    | answered n answer now' =>
      obtain rfl := Option.some.inj heq
      exact hprod.2.1.trans hclock
    | redriven now' =>
      obtain rfl := Option.some.inj heq
      exact hprod.1.trans hclock
    | _ => cases heq

theorem timely_of_reachable {s : State π} (h : (engine lib cfg).Reachable s) : Timely cfg s :=
  h.invariant ⟨inv_init, nofun⟩ fun _ _ _ hinv hstep => hinv.move (move_of_step hstep)

end Hookit.Engine
