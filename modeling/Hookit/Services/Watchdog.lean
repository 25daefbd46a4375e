import Hookit.Foundations.Machine
import Hookit.Models
import Mathlib.Tactic.Linarith

/-!
# `app/services/idle_watchdog.py`

The app process around its watchdog, one action an `await`: startup wakes the producer and worker
machines that are not running (`wake_showcase_machines`), and a tick that finds the last visit too
old stops those that are (`_stop_if_idle`). In between the dashboard is visited, time passes and the
process goes down and comes up again. Every call to the Machines API succeeds: a stopped machine is
no longer reported as started, and a machine that is sent a start is reported as started some time
later.

Only startup wakes machines. `awake_of_tickEnds`: as long as nobody visits between a tick that stops
machines and the next startup, every tick that ends with a recent visit leaves all machines awake. A
visit after a stop finds nobody to wake them (`not_awake_of_tickEnds`).
-/

namespace Hookit.Watchdog

open Foundations

/-! ## States -/

/-- The process groups of `fly.toml`. -/
inductive ProcessGroup
  | app
  | producer
  | worker
  deriving DecidableEq

/-- `_PROCESS_GROUPS`. -/
def processGroups : List ProcessGroup := [.producer, .worker]

inductive MachineRequest
  | start
  | stop
  deriving DecidableEq

/-- A machine as the Machines API reports it, and the last request that it was sent. -/
structure FlyMachine where
  id : ℕ
  group : ProcessGroup
  /-- `state == "started"`. -/
  started : Bool
  lastRequest : Option MachineRequest
  deriving DecidableEq

/-- What the app process is doing. -/
inductive Phase
  | down
  /-- `wake_showcase_machines`, with the groups to list and the machines to start. -/
  | waking (groups : List ProcessGroup) (machines : List ℕ)
  /-- Serving, with the watchdog asleep. -/
  | serving
  /-- Serving, with `_stop_if_idle` past its check. -/
  | stopping (groups : List ProcessGroup) (machines : List ℕ)
  deriving DecidableEq

structure State where
  clock : Time
  /-- `last_seen_at`. -/
  lastSeen : Option Time
  phase : Phase
  machines : List FlyMachine
  deriving DecidableEq

inductive Act
  /-- Time passes. -/
  | elapse (seconds : ℚ)
  /-- The process starts. -/
  | startup
  /-- The next step of `wake_showcase_machines`. -/
  | wake
  /-- A `GET` of the dashboard. -/
  | visit
  /-- The watchdog wakes up. -/
  | tick
  /-- The next step of `_stop_if_idle`. -/
  | stop
  /-- The process goes down. -/
  | shutdown
  /-- A machine that was sent a start is reported as started. -/
  | started (machine : ℕ)

/-! ## Steps -/

/-- `is_idle`, with the threshold in seconds. -/
def isIdle (lastSeenAt now idleThreshold : Time) : Bool := idleThreshold ≤ now - lastSeenAt

namespace State

variable (s : State)

/-- `list_machine_ids`. -/
def listMachineIds (processGroup : ProcessGroup) (started : Bool) : List ℕ :=
  (s.machines.filter fun m => m.group = processGroup ∧ m.started = started).map FlyMachine.id

/-- Change the machine with an id. -/
def modify (id : ℕ) (f : FlyMachine → FlyMachine) : State :=
  { s with machines := s.machines.map fun m => if m.id = id then f m else m }

/-- `client.start`. -/
def start (id : ℕ) : State := s.modify id fun m => { m with lastRequest := some .start }

/-- `client.stop`. -/
def stop (id : ℕ) : State :=
  s.modify id fun m => { m with lastRequest := some .stop, started := false }

/-- `wake_showcase_machines`, one step. -/
def wake : Option State :=
  match s.phase with
  | .waking groups (id :: ids) => some { s.start id with phase := .waking groups ids }
  | .waking (group :: groups) [] =>
    some { s with phase := .waking groups (s.listMachineIds group false) }
  | .waking [] [] => some { s with phase := .serving }
  | _ => none

/-- `_stop_if_idle` after the check, one step. -/
def stopNext : Option State :=
  match s.phase with
  | .stopping groups (id :: ids) => some { s.stop id with phase := .stopping groups ids }
  | .stopping (group :: groups) [] =>
    some { s with phase := .stopping groups (s.listMachineIds group true) }
  | .stopping [] [] => some { s with phase := .serving }
  | _ => none

/-- `_stop_if_idle` up to the check. -/
def check (idleThreshold : Time) : State :=
  match s.lastSeen with
  | none => s
  | some lastSeen =>
    if isIdle lastSeen s.clock idleThreshold then { s with phase := .stopping processGroups [] }
    else s

/-- The process answers requests. -/
def Serves : Prop := s.phase = .serving ∨ ∃ groups machines, s.phase = .stopping groups machines

instance : Decidable s.Serves :=
  match h : s.phase with
  | .serving => isTrue (.inl h)
  | .stopping groups machines => isTrue (.inr ⟨groups, machines, h⟩)
  | .down => isFalse (by rintro (h' | ⟨_, _, h'⟩) <;> simp [h] at h')
  | .waking _ _ => isFalse (by rintro (h' | ⟨_, _, h'⟩) <;> simp [h] at h')

end State

/-- One step of the app process or of its surroundings. -/
def step (idleThreshold : Time) : Act → State → Option State
  | .elapse seconds, s => if 0 ≤ seconds then some { s with clock := s.clock + seconds } else none
  | .startup, s =>
    if s.phase = .down then some { s with phase := .waking processGroups [] } else none
  | .wake, s => s.wake
  | .visit, s => if s.Serves then some { s with lastSeen := some s.clock } else none
  | .tick, s => if s.phase = .serving then some (s.check idleThreshold) else none
  | .stop, s => s.stopNext
  | .shutdown, s => if s.phase = .down then none else some { s with phase := .down }
  | .started id, s =>
    if s.machines.any fun m => m.id = id ∧ m.lastRequest = some .start then
      some (s.modify id fun m => { m with started := m.started || m.lastRequest = some .start })
    else none

/-- The app process from its first startup on. -/
def process (idleThreshold : Time) (clock : Time) (lastSeen : Option Time)
    (machines : List (ℕ × ProcessGroup × Bool)) : Machine State Act where
  init :=
    { clock
      lastSeen
      phase := .down
      machines := machines.map fun m => ⟨m.1, m.2.1, m.2.2, none⟩ }
  step := step idleThreshold

/-! ## What is promised -/

/-- The machine runs, or it was sent a start after its last stop. -/
def FlyMachine.Awake (m : FlyMachine) : Prop := m.started = true ∨ m.lastRequest = some .start

/-- A tick of the watchdog is complete with the step. -/
def TickEnds (a : Act) (s' : State) : Prop := (a = .tick ∨ a = .stop) ∧ s'.phase = .serving

/-- The last visit is less than the threshold ago. -/
def State.Recent (s : State) (idleThreshold : Time) : Prop :=
  ∃ lastSeen, s.lastSeen = some lastSeen ∧ isIdle lastSeen s.clock idleThreshold = false

/-- Every producer and worker machine is awake. -/
def State.AllAwake (s : State) : Prop := ∀ m ∈ s.machines, m.group ∈ processGroups → m.Awake

/-- A visit is not recorded between a tick that stops machines and the next startup. -/
def VisitsInTime (a : Act) (s : State) : Prop :=
  a = .visit → s.phase = .serving ∧
    ∀ m ∈ s.machines, m.group ∈ processGroups → m.lastRequest ≠ some .stop

/-! ## The invariant -/

/-- The last visit is as old as a tick wants it to be. -/
def State.Idle (s : State) (idleThreshold : Time) : Prop :=
  ∃ lastSeen, s.lastSeen = some lastSeen ∧ isIdle lastSeen s.clock idleThreshold = true

structure Inv (idleThreshold : Time) (s : State) : Prop where
  stopped : ∀ m ∈ s.machines, m.lastRequest = some .stop → m.started = false
  /-- What startup has not woken is still on its lists. -/
  waking : ∀ groups ids, s.phase = .waking groups ids → ∀ m ∈ s.machines,
    m.group ∈ processGroups → m.Awake ∨ m.group ∈ groups ∨ m.id ∈ ids
  serving : s.Serves → ∀ m ∈ s.machines, m.group ∈ processGroups →
    m.Awake ∨ m.lastRequest = some .stop
  /-- What is stopped, is stopped for a visit that is still too old. -/
  idle : (∃ groups ids, s.phase = .stopping groups ids) ∨ (s.Serves ∧ ∃ m ∈ s.machines,
    m.group ∈ processGroups ∧ m.lastRequest = some .stop) → s.Idle idleThreshold

section Steps

variable {idleThreshold : Time} {s s' : State}

theorem mem_modify {id : ℕ} {f : FlyMachine → FlyMachine} {m : FlyMachine} :
    m ∈ (s.modify id f).machines ↔ ∃ m' ∈ s.machines, (if m'.id = id then f m' else m') = m :=
  List.mem_map

theorem State.Idle.elapse {seconds : ℚ} (h : s.Idle idleThreshold) (hseconds : 0 ≤ seconds) :
    State.Idle { s with clock := s.clock + seconds } idleThreshold := by
  obtain ⟨lastSeen, hseen, hidle⟩ := h
  refine ⟨lastSeen, hseen, ?_⟩
  simp only [isIdle, decide_eq_true_eq] at hidle ⊢
  linarith

theorem mem_listMachineIds {group : ProcessGroup} {started : Bool} {m : FlyMachine}
    (hm : m ∈ s.machines) (hgroup : m.group = group) (hstarted : m.started = started) :
    m.id ∈ s.listMachineIds group started :=
  List.mem_map_of_mem (List.mem_filter.2 ⟨hm, by simp [hgroup, hstarted]⟩)

theorem not_serves_waking {groups : List ProcessGroup} {ids : List ℕ}
    (h : s.phase = .waking groups ids) : ¬ s.Serves := by
  rintro (h' | ⟨_, _, h'⟩) <;> simp [h] at h'

theorem not_serves_down (h : s.phase = .down) : ¬ s.Serves := by
  rintro (h' | ⟨_, _, h'⟩) <;> simp [h] at h'

/-- A machine that is awake was not told to stop. -/
theorem Inv.lastRequest_ne (h : Inv idleThreshold s) {m : FlyMachine} (hm : m ∈ s.machines)
    (hawake : m.Awake) : m.lastRequest ≠ some .stop := by
  intro hstop
  have hstarted := h.stopped m hm hstop
  rcases hawake with hrun | hstart
  · simp [hstarted] at hrun
  · simp [hstop] at hstart

/-- While the process does not serve, only the machines count. -/
theorem Inv.of_not_serves (hserves : ¬ s.Serves)
    (hstopped : ∀ m ∈ s.machines, m.lastRequest = some .stop → m.started = false)
    (hwaking : ∀ groups ids, s.phase = .waking groups ids → ∀ m ∈ s.machines,
      m.group ∈ processGroups → m.Awake ∨ m.group ∈ groups ∨ m.id ∈ ids) : Inv idleThreshold s := by
  refine ⟨hstopped, hwaking, fun h => absurd h hserves, ?_⟩
  rintro (⟨groups, ids, h⟩ | ⟨h, -⟩)
  · exact absurd (.inr ⟨groups, ids, h⟩) hserves
  · exact absurd h hserves

/-- **A step of startup** keeps what is not woken on its lists. -/
theorem Inv.wake (h : Inv idleThreshold s) (hs : s.wake = some s') : Inv idleThreshold s' := by
  unfold State.wake at hs
  cases hphase : s.phase with
  | waking groups ids =>
    have hwaking := h.waking groups ids hphase
    rw [hphase] at hs
    cases ids with
    | cons id ids =>
      obtain rfl := Option.some.inj hs
      refine Inv.of_not_serves (not_serves_waking rfl) (fun m hm hstop => ?_) ?_
      · obtain ⟨m', hm', rfl⟩ := mem_modify.1 hm
        split at hstop
        · cases hstop
        · next hid =>
          rw [if_neg hid]
          exact h.stopped m' hm' hstop
      · rintro _ _ ⟨⟩ m hm hgroup
        obtain ⟨m', hm', rfl⟩ := mem_modify.1 hm
        split
        · exact .inl (.inr rfl)
        · next hid =>
          rw [if_neg hid] at hgroup
          refine (hwaking m' hm' hgroup).imp_right fun hlisted => hlisted.imp_right fun hmem => ?_
          exact (List.mem_cons.1 hmem).resolve_left hid
    | nil =>
      cases groups with
      | cons group groups =>
        obtain rfl := Option.some.inj hs
        refine Inv.of_not_serves (not_serves_waking rfl) h.stopped ?_
        rintro _ _ ⟨⟩ m hm hgroup
        rcases hwaking m hm hgroup with hawake | hlisted | hlisted
        · exact .inl hawake
        · rcases List.mem_cons.1 hlisted with hfirst | hlater
          · cases hstarted : m.started with
            | true => exact .inl (.inl hstarted)
            | false => exact .inr (.inr (mem_listMachineIds hm hfirst hstarted))
          · exact .inr (.inl hlater)
        · cases hlisted
      | nil =>
        obtain rfl := Option.some.inj hs
        have hawake : ∀ m ∈ s.machines, m.group ∈ processGroups → m.Awake := fun m hm hgroup =>
          (hwaking m hm hgroup).resolve_right (by simp)
        refine ⟨h.stopped, nofun, fun _ m hm hgroup => .inl (hawake m hm hgroup), ?_⟩
        rintro (⟨_, _, ⟨⟩⟩ | ⟨-, m, hm, hgroup, hstop⟩)
        exact absurd hstop (h.lastRequest_ne hm (hawake m hm hgroup))
  | _ => simp [hphase] at hs

/-- **A step of a tick that stops machines** does so for a visit that is too old. -/
theorem Inv.stopNext (h : Inv idleThreshold s) (hs : s.stopNext = some s') :
    Inv idleThreshold s' := by
  unfold State.stopNext at hs
  cases hphase : s.phase with
  | stopping groups ids =>
    have hidle := h.idle (.inl ⟨groups, ids, hphase⟩)
    have hserving := h.serving (.inr ⟨groups, ids, hphase⟩)
    rw [hphase] at hs
    cases ids with
    | cons id ids =>
      obtain rfl := Option.some.inj hs
      refine ⟨fun m hm hstop => ?_, nofun, fun _ m hm hgroup => ?_, fun _ => hidle⟩
      · obtain ⟨m', hm', rfl⟩ := mem_modify.1 hm
        split
        · rfl
        · next hid =>
          rw [if_neg hid] at hstop
          exact h.stopped m' hm' hstop
      · obtain ⟨m', hm', rfl⟩ := mem_modify.1 hm
        split
        · exact .inr rfl
        · next hid =>
          rw [if_neg hid] at hgroup
          exact hserving m' hm' hgroup
    | nil =>
      cases groups with
      | cons group groups =>
        obtain rfl := Option.some.inj hs
        exact ⟨h.stopped, nofun, fun _ => hserving, fun _ => hidle⟩
      | nil =>
        obtain rfl := Option.some.inj hs
        exact ⟨h.stopped, nofun, fun _ => hserving, fun _ => hidle⟩
  | _ => simp [hphase] at hs

/-- A machine that comes up was not told to stop. -/
theorem Inv.started (h : Inv idleThreshold s) (id : ℕ) : Inv idleThreshold
    (s.modify id fun m => { m with started := m.started || m.lastRequest = some .start }) := by
  have hmem : ∀ m ∈ (s.modify id fun m =>
      { m with started := m.started || m.lastRequest = some .start }).machines, ∃ m' ∈ s.machines,
      m.id = m'.id ∧ m.group = m'.group ∧ m.lastRequest = m'.lastRequest ∧
        m.started = (m'.started || (m'.id = id ∧ m'.lastRequest = some .start)) := by
    intro m hm
    obtain ⟨m', hm', rfl⟩ := mem_modify.1 hm
    refine ⟨m', hm', ?_⟩
    split
    · next hid => simp [hid]
    · next hid => simp [hid]
  have hawake : ∀ m m' : FlyMachine, m.lastRequest = m'.lastRequest →
      m.started = (m'.started || (m'.id = id ∧ m'.lastRequest = some .start)) → m'.Awake → m.Awake := by
    rintro m m' hrequest hstarted (hrun | hstart)
    · exact .inl (by rw [hstarted, hrun]; rfl)
    · exact .inr (hrequest.trans hstart)
  refine ⟨fun m hm hstop => ?_, fun groups ids hphase m hm hgroup => ?_,
    fun hserves m hm hgroup => ?_, fun hidle => h.idle (hidle.imp_right ?_)⟩
  · obtain ⟨m', hm', -, -, hrequest, hstarted⟩ := hmem m hm
    rw [hrequest] at hstop
    rw [hstarted, h.stopped m' hm' hstop]
    simp [hstop]
  · obtain ⟨m', hm', hid, hgroup', hrequest, hstarted⟩ := hmem m hm
    rw [hgroup'] at hgroup ⊢
    rw [hid]
    exact (h.waking groups ids hphase m' hm' hgroup).imp_left (hawake m m' hrequest hstarted)
  · obtain ⟨m', hm', -, hgroup', hrequest, hstarted⟩ := hmem m hm
    rw [hgroup'] at hgroup
    rw [hrequest]
    exact (h.serving hserves m' hm' hgroup).imp_left (hawake m m' hrequest hstarted)
  · rintro ⟨hserves, m, hm, hgroup, hstop⟩
    obtain ⟨m', hm', -, hgroup', hrequest, -⟩ := hmem m hm
    exact ⟨hserves, m', hm', hgroup' ▸ hgroup, hrequest ▸ hstop⟩

/-- **Every step** keeps the invariant, if visits are in time. -/
theorem Inv.step {a : Act} (h : Inv idleThreshold s) (hvisit : VisitsInTime a s)
    (hs : step idleThreshold a s = some s') : Inv idleThreshold s' := by
  cases a with
  | elapse seconds =>
    simp only [Watchdog.step] at hs
    split at hs
    · next hseconds =>
      obtain rfl := Option.some.inj hs
      exact ⟨h.stopped, h.waking, h.serving, fun hidle => (h.idle hidle).elapse hseconds⟩
    · cases hs
  | startup =>
    simp only [Watchdog.step] at hs
    split at hs
    · obtain rfl := Option.some.inj hs
      refine Inv.of_not_serves (not_serves_waking rfl) h.stopped ?_
      rintro _ _ ⟨⟩ m hm hgroup
      exact .inr (.inl hgroup)
    · cases hs
  | wake => exact h.wake hs
  | visit =>
    simp only [Watchdog.step] at hs
    split at hs
    · obtain rfl := Option.some.inj hs
      obtain ⟨hserving, hnone⟩ := hvisit rfl
      refine ⟨h.stopped, h.waking, h.serving, ?_⟩
      rintro (⟨groups, ids, hstopping⟩ | ⟨-, m, hm, hgroup, hstop⟩)
      · rw [hserving] at hstopping
        cases hstopping
      · exact absurd hstop (hnone m hm hgroup)
    · cases hs
  | tick =>
    simp only [Watchdog.step] at hs
    split at hs
    · next hphase =>
      obtain rfl := Option.some.inj hs
      unfold State.check
      split
      · exact h
      · next lastSeen hseen =>
        split
        · next hidle =>
          exact ⟨h.stopped, nofun, fun _ => h.serving (.inl hphase),
            fun _ => ⟨lastSeen, hseen, hidle⟩⟩
        · exact h
    · cases hs
  | stop => exact h.stopNext hs
  | shutdown =>
    simp only [Watchdog.step] at hs
    split at hs
    · cases hs
    · obtain rfl := Option.some.inj hs
      exact Inv.of_not_serves (not_serves_down rfl) h.stopped nofun
  | started id =>
    simp only [Watchdog.step] at hs
    split at hs
    · obtain rfl := Option.some.inj hs
      exact h.started id
    · cases hs

/-- **The end of a tick** with a recent visit finds all machines awake. -/
theorem Inv.allAwake (h : Inv idleThreshold s) (hserving : s.phase = .serving)
    (hrecent : s.Recent idleThreshold) : s.AllAwake := by
  intro m hm hgroup
  refine (h.serving (.inl hserving) m hm hgroup).resolve_right fun hstop => ?_
  obtain ⟨lastSeen, hseen, hnot⟩ := hrecent
  obtain ⟨lastSeen', hseen', hidle⟩ := h.idle (.inr ⟨.inl hserving, m, hm, hgroup, hstop⟩)
  obtain rfl := Option.some.inj (hseen.symm.trans hseen')
  rw [hnot] at hidle
  cases hidle

end Steps

section Runs

variable {idleThreshold clock : Time} {lastSeen : Option Time}
  {machines : List (ℕ × ProcessGroup × Bool)} {s : State}

theorem inv_of_reachableIf
    (h : (process idleThreshold clock lastSeen machines).ReachableIf VisitsInTime s) :
    Inv idleThreshold s := by
  refine h.invariant ?_ fun a s s' hinv hvisit hs => hinv.step hvisit hs
  refine Inv.of_not_serves (not_serves_down rfl) (fun m hm hstop => ?_) nofun
  obtain ⟨m', -, rfl⟩ := List.mem_map.1 hm
  cases hstop

end Runs

/-- **No visitor is left without machines**: in every run in which nobody visits between a tick that
stops machines and the next startup, a tick that ends with a recent visit leaves every producer and
worker machine awake. -/
theorem awake_of_tickEnds (idleThreshold clock : Time) (lastSeen : Option Time)
    (machines : List (ℕ × ProcessGroup × Bool)) (s s' : State) (a : Act)
    (h : (process idleThreshold clock lastSeen machines).ReachableIf VisitsInTime s)
    (hvisit : VisitsInTime a s)
    (hs : (process idleThreshold clock lastSeen machines).step a s = some s')
    (hend : TickEnds a s') (hrecent : s'.Recent idleThreshold) : s'.AllAwake :=
  ((inv_of_reachableIf h).step hvisit hs).allAwake hend.2 hrecent

/-! ## A visit after a stop -/

/-- Startup with one producer machine. -/
def startProducer : List Act := [.startup, .wake, .wake, .wake]

/-- A tick ten minutes after the last visit. -/
def idleTick : List Act := [.elapse 600, .tick, .stop, .stop, .stop, .stop]

/-- The process with one producer machine that runs, and a visit at its start. -/
def oneProducer : Machine State Act := process 600 0 (some 0) [(1, .producer, true)]

/-- Whether a visit is in time. -/
def visitInTime (a : Act) (s : State) : Bool :=
  match a with
  | .visit => s.phase = .serving ∧
      ∀ m ∈ s.machines, m.group ∈ processGroups → m.lastRequest ≠ some .stop
  | _ => true

theorem visitsInTime_of_visitInTime (a : Act) (s : State) (h : visitInTime a s = true) :
    VisitsInTime a s := by
  rintro rfl
  exact of_decide_eq_true h

/-- A visit, a tick that stops the machine, a restart that wakes it, and another visit. -/
def stoppedAndWoken : List Act :=
  startProducer ++ [.visit] ++ idleTick ++
    [.shutdown, .startup, .wake, .wake, .wake, .wake, .started 1, .visit]

/-- The tick after it finds the machine awake. -/
theorem awake_of_tickEnds_serving : ∃ s s' : State,
    oneProducer.ReachableIf VisitsInTime s ∧ oneProducer.step .tick s = some s' ∧
      s'.Recent 600 ∧ s'.AllAwake := by
  have hrun : oneProducer.runIf visitInTime stoppedAndWoken oneProducer.init =
      some ⟨600, some 600, .serving, [⟨1, .producer, true, some .start⟩]⟩ := by
    decide +kernel
  have hreach := Machine.steps_of_runIf visitsInTime_of_visitInTime hrun
  have hstep : oneProducer.step .tick ⟨600, some 600, .serving,
      [⟨1, .producer, true, some .start⟩]⟩ =
      some ⟨600, some 600, .serving, [⟨1, .producer, true, some .start⟩]⟩ := by
    decide +kernel
  have hrecent : State.Recent ⟨600, some 600, .serving, [⟨1, .producer, true, some .start⟩]⟩ 600 :=
    ⟨600, rfl, by decide +kernel⟩
  exact ⟨_, _, hreach, hstep, hrecent, awake_of_tickEnds 600 0 (some 0)
    [(1, .producer, true)] _ _ .tick hreach nofun hstep ⟨.inl rfl, rfl⟩ hrecent⟩

/-- The process after a tick that has stopped the machine and a visit. -/
def stranded : State := ⟨600, some 600, .serving, [⟨1, .producer, false, some .stop⟩]⟩

/-- A visitor who comes after a stop finds a machine that nothing wakes. -/
theorem not_awake_of_tickEnds : ¬ ∀ (idleThreshold clock : Time) (lastSeen : Option Time)
    (machines : List (ℕ × ProcessGroup × Bool)) (s s' : State) (a : Act),
    (process idleThreshold clock lastSeen machines).Reachable s →
    (process idleThreshold clock lastSeen machines).step a s = some s' →
    TickEnds a s' → s'.Recent idleThreshold → s'.AllAwake := by
  intro hall
  have hrun : oneProducer.run (startProducer ++ idleTick ++ [.visit]) oneProducer.init =
      some stranded := by decide +kernel
  have hreach : oneProducer.Reachable stranded :=
    Machine.steps_of_run (fun _ _ _ => trivial) hrun
  have hstep : oneProducer.step .tick stranded = some stranded := by decide +kernel
  rcases hall 600 0 (some 0) [(1, .producer, true)] stranded stranded .tick hreach hstep
    ⟨.inl rfl, rfl⟩ ⟨600, rfl, by decide +kernel⟩ _ (List.mem_singleton.2 rfl) (by decide) with h | h
  · cases h
  · cases h

end Hookit.Watchdog
