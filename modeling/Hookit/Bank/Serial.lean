import Hookit.Bank.Machine

/-!
# Concurrent trades are serial trades

In every reachable state of the bank its committed rows are those of a ledger that applies the
committed transactions one after another in commit order (`Inv`, `serializable`). The processed
row that a transaction inserts first is what makes its event id its own until it ends, and the row
lock on the account makes its read and its write one step.
-/

namespace Hookit.Bank

open Foundations

/-- The ledger before any trade. -/
def Ledger.empty : Ledger := ⟨[], fun _ => none⟩

/-- The ledger that applies the committed transactions in commit order. -/
def State.serial (s : State) : Ledger := applyAll .empty (s.log.map Prod.snd)

/-- The row that the next trade of an account is credited to. -/
def State.base (s : State) (account : PyStr) : Account :=
  (s.accounts.rows account).getD .opened

/-- What holds of an open transaction. -/
structure TxInv (s : State) (t : Tid) (tx : Tx) : Prop where
  duplicate : tx.phase = .duplicate → s.processed.rows tx.eventId = some ()
  inserted : tx.phase ≠ .duplicate →
    s.processed.held tx.eventId = some (t, some ()) ∧ s.processed.rows tx.eventId = none
  /-- The account's row is there, committed or its own. -/
  ensured : tx.phase = .ensured → (∃ row, s.accounts.rows tx.trade.account = some row) ∧
      ¬ s.accounts.Holds t tx.trade.account ∨
    s.accounts.rows tx.trade.account = none ∧
      s.accounts.held tx.trade.account = some (t, some .opened)
  locked : tx.phase = .locked →
    s.accounts.held tx.trade.account = some (t, some (s.base tx.trade.account))
  applied : tx.phase = .applied → s.accounts.held tx.trade.account =
    some (t, some (creditRow tx.trade (s.base tx.trade.account)))

/-- The invariant of the bank. -/
structure Inv (s : State) : Prop where
  accounts : ∀ account, s.accounts.rows account = s.serial.accounts account
  processed : ∀ e, s.processed.rows e = some () ↔ e ∈ s.log.map fun p => p.2.1
  nodup : (s.log.map fun p => p.2.1).Nodup
  log : ∀ t e trade, (t, e, trade) ∈ s.log ↔ s.txs t = .committed e trade .applied
  heldProcessed : ∀ e t v, s.processed.held e = some (t, v) → v = some () ∧
    ∃ tx, s.txs t = .running tx ∧ tx.eventId = e ∧ tx.phase ≠ .duplicate
  heldAccounts : ∀ account t v, s.accounts.held account = some (t, v) → (∃ row, v = some row) ∧
    ∃ tx, s.txs t = .running tx ∧ tx.trade.account = account ∧
      tx.phase ≠ .duplicate ∧ tx.phase ≠ .inserted
  running : ∀ t tx, s.txs t = .running tx → TxInv s t tx

section Moves

variable {s s' : State} {t : Tid} {tx tx' : Tx}

theorem running_put {processed : Table Tid EventId Unit} {accounts : Table Tid PyStr Account}
    {t' : Tid} : (s.put t processed accounts tx).txs t' = .running tx' ↔
      (t' = t ∧ tx = tx') ∨ (t' ≠ t ∧ s.txs t' = .running tx') := by
  simp [State.put, update_apply_eq_iff]

/-- Another transaction's step does not touch what transaction `t` depends on. -/
theorem TxInv.frame (h : TxInv s t tx)
    (hprocessed : ∀ e v, s'.processed.held e = some (t, v) ↔ s.processed.held e = some (t, v))
    (hrow : ∀ e, s.processed.rows e = some () → s'.processed.rows e = some ())
    (hrow' : ∀ e, s.processed.Holds t e → s'.processed.rows e = s.processed.rows e)
    (haccounts : ∀ a v, s'.accounts.held a = some (t, v) ↔ s.accounts.held a = some (t, v))
    (hacc : ∀ a, (∃ row, s.accounts.rows a = some row) → ∃ row, s'.accounts.rows a = some row)
    (hacc' : ∀ a, s.accounts.Holds t a → s'.accounts.rows a = s.accounts.rows a) :
    TxInv s' t tx := by
  have hbase : ∀ a v, s.accounts.held a = some (t, v) → s'.base a = s.base a := fun a v hv => by
    rw [State.base, State.base, hacc' a ⟨v, hv⟩]
  refine ⟨fun hphase => hrow _ (h.duplicate hphase), fun hphase => ?inserted, fun hphase => ?ensured,
    fun hphase => ?locked, fun hphase => ?applied⟩
  case inserted =>
    obtain ⟨hheld, hnone⟩ := h.inserted hphase
    exact ⟨(hprocessed _ _).2 hheld, (hrow' _ ⟨_, hheld⟩).trans hnone⟩
  case ensured =>
    rcases h.ensured hphase with ⟨hsome, hnot⟩ | ⟨hnone, hheld⟩
    · exact .inl ⟨hacc _ hsome, fun ⟨v, hv⟩ => hnot ⟨v, (haccounts _ v).1 hv⟩⟩
    · exact .inr ⟨(hacc' _ ⟨_, hheld⟩).trans hnone, (haccounts _ _).2 hheld⟩
  case locked =>
    have hheld := h.locked hphase
    rw [hbase _ _ hheld]
    exact (haccounts _ _).2 hheld
  case applied =>
    have hheld := h.applied hphase
    rw [hbase _ _ hheld]
    exact (haccounts _ _).2 hheld

/-- **A statement of one transaction keeps the invariant** if it keeps the transaction's own and
locks only the rows of its event and its account. -/
theorem Inv.put (h : Inv s) {processed : Table Tid EventId Unit}
    {accounts : Table Tid PyStr Account} (hprocessed : s.processed.Statement t processed)
    (haccounts : s.accounts.Statement t accounts)
    (ht : s.txs t = .unused ∨ ∃ tx, s.txs t = .running tx)
    (hheldProcessed : ∀ e v, processed.held e = some (t, v) →
      v = some () ∧ tx.eventId = e ∧ tx.phase ≠ .duplicate)
    (hheldAccounts : ∀ a v, accounts.held a = some (t, v) → (∃ row, v = some row) ∧
      tx.trade.account = a ∧ tx.phase ≠ .duplicate ∧ tx.phase ≠ .inserted)
    (htx : TxInv (s.put t processed accounts tx) t tx) :
    Inv (s.put t processed accounts tx) := by
  have hnot : ∀ e trade outcome, s.txs t ≠ .committed e trade outcome := by
    intro e trade outcome hc
    rcases ht with ht | ⟨tx', ht⟩ <;> · rw [ht] at hc; cases hc
  refine ⟨?accounts, ?processed, h.nodup, ?log, ?heldProcessed, ?heldAccounts, ?running⟩
  case accounts => exact fun a => (congrFun haccounts.rows a).trans (h.accounts a)
  case processed =>
    intro e
    exact (Eq.congr_left (congrFun hprocessed.rows e)).trans (h.processed e)
  case log =>
    intro t' e trade
    rcases eq_or_ne t' t with rfl | hne
    · refine ⟨fun hmem => absurd ((h.log _ _ _).1 hmem) (hnot _ _ _), fun hc => ?_⟩
      simp [State.put] at hc
    · rw [show (s.put t processed accounts tx).txs t' = s.txs t' from Function.update_of_ne hne _ _]
      exact h.log t' e trade
  case heldProcessed =>
    intro e t' v hv
    rcases eq_or_ne t' t with rfl | hne
    · obtain ⟨hv', he, hphase⟩ := hheldProcessed e v hv
      exact ⟨hv', tx, running_put.2 (.inl ⟨rfl, rfl⟩), he, hphase⟩
    · obtain ⟨hv', tx', ht', he, hphase⟩ := h.heldProcessed e t' v ((hprocessed.held_iff hne).1 hv)
      exact ⟨hv', tx', running_put.2 (.inr ⟨hne, ht'⟩), he, hphase⟩
  case heldAccounts =>
    intro a t' v hv
    rcases eq_or_ne t' t with rfl | hne
    · obtain ⟨hv', ha, hphase⟩ := hheldAccounts a v hv
      exact ⟨hv', tx, running_put.2 (.inl ⟨rfl, rfl⟩), ha, hphase⟩
    · obtain ⟨hv', tx', ht', ha, hphase⟩ := h.heldAccounts a t' v ((haccounts.held_iff hne).1 hv)
      exact ⟨hv', tx', running_put.2 (.inr ⟨hne, ht'⟩), ha, hphase⟩
  case running =>
    intro t' tx' ht'
    rcases running_put.1 ht' with ⟨rfl, rfl⟩ | ⟨hne, ht'⟩
    · exact htx
    · have hrow : ∀ e, processed.rows e = s.processed.rows e := congrFun hprocessed.rows
      have hacc : ∀ a, accounts.rows a = s.accounts.rows a := congrFun haccounts.rows
      refine (h.running t' tx' ht').frame (fun e v => hprocessed.held_iff hne)
        (fun e he => (hrow e).trans he) (fun e _ => hrow e) (fun a v => haccounts.held_iff hne)
        (fun a ha => ?_) fun a _ => hacc a
      obtain ⟨row, hr⟩ := ha
      exact ⟨row, (hacc a).trans hr⟩

/-- A transaction that has not begun holds nothing. -/
theorem Inv.unheld_of_unused (h : Inv s) (ht : s.txs t = .unused) :
    (∀ e v, s.processed.held e ≠ some (t, v)) ∧ ∀ a v, s.accounts.held a ≠ some (t, v) := by
  refine ⟨fun e v hv => ?_, fun a v hv => ?_⟩
  · obtain ⟨-, tx, htx, -⟩ := h.heldProcessed e t v hv
    rw [ht] at htx
    cases htx
  · obtain ⟨-, tx, htx, -⟩ := h.heldAccounts a t v hv
    rw [ht] at htx
    cases htx

theorem Inv.duplicate (h : Inv s) (ht : s.txs t = .unused) {e : EventId} {trade : ParsedTrade}
    (hrow : s.processed.visible t e = some ()) :
    Inv (s.put t s.processed s.accounts ⟨e, trade, .duplicate⟩) := by
  obtain ⟨hp, ha⟩ := h.unheld_of_unused ht
  refine h.put (.refl t _) (.refl t _) (.inl ht) (fun e v hv => absurd hv (hp e v))
    (fun a v hv => absurd hv (ha a v)) ⟨fun _ => ?_, fun hne => absurd rfl hne, nofun, nofun, nofun⟩
  rw [Table.visible_of_not_holds fun ⟨v, hv⟩ => hp e v hv] at hrow
  exact hrow

theorem Inv.insert (h : Inv s) (ht : s.txs t = .unused) {e : EventId} {trade : ParsedTrade}
    (hfree : s.processed.free t e = true) (hrow : s.processed.visible t e = none) :
    Inv (s.put t (s.processed.write t e (some ())) s.accounts ⟨e, trade, .inserted⟩) := by
  obtain ⟨hp, ha⟩ := h.unheld_of_unused ht
  refine h.put (.write hfree _) (.refl t _) (.inl ht) (fun e' v hv => ?_)
    (fun a v hv => absurd hv (ha a v)) ⟨nofun, fun _ => ⟨Table.write_held_self, ?_⟩, nofun, nofun,
      nofun⟩
  · rcases eq_or_ne e' e with rfl | he
    · rw [Table.write_held_self] at hv
      exact ⟨(Prod.mk.inj (Option.some.inj hv)).2.symm, rfl, nofun⟩
    · rw [Table.write_held_of_ne he] at hv
      exact absurd hv (hp e' v)
  · rw [Table.visible_of_not_holds fun ⟨v, hv⟩ => hp e v hv] at hrow
    exact hrow

/-- The rows that a running transaction holds are those of its event and its account. -/
theorem Inv.held_of_running (h : Inv s) (ht : s.txs t = .running tx) :
    (∀ e v, s.processed.held e = some (t, v) →
      v = some () ∧ tx.eventId = e ∧ tx.phase ≠ .duplicate) ∧
    ∀ a v, s.accounts.held a = some (t, v) → (∃ row, v = some row) ∧ tx.trade.account = a ∧
      tx.phase ≠ .duplicate ∧ tx.phase ≠ .inserted := by
  refine ⟨fun e v hv => ?_, fun a v hv => ?_⟩
  · obtain ⟨hv', tx', ht', he, hphase⟩ := h.heldProcessed e t v hv
    rw [ht] at ht'
    obtain rfl := TxState.running.inj ht'
    exact ⟨hv', he, hphase⟩
  · obtain ⟨hv', tx', ht', ha, hphase⟩ := h.heldAccounts a t v hv
    rw [ht] at ht'
    obtain rfl := TxState.running.inj ht'
    exact ⟨hv', ha, hphase⟩

/-- **A write to the account's row in a later phase.** -/
theorem Inv.writeAccount (h : Inv s) (ht : s.txs t = .running tx) (hphase : tx.phase ≠ .duplicate)
    (hfree : s.accounts.free t tx.trade.account = true) {row : Account} {phase : Phase}
    (hdup : phase ≠ .duplicate) (hins : phase ≠ .inserted)
    (hensured : phase = .ensured → s.accounts.rows tx.trade.account = none ∧ row = .opened)
    (hlocked : phase = .locked → row = s.base tx.trade.account)
    (happlied : phase = .applied → row = creditRow tx.trade (s.base tx.trade.account)) :
    Inv (s.put t s.processed (s.accounts.write t tx.trade.account (some row))
      { tx with phase }) := by
  obtain ⟨hp, ha⟩ := h.held_of_running ht
  have hself : (s.accounts.write t tx.trade.account (some row)).held tx.trade.account =
    some (t, some row) := Table.write_held_self
  refine h.put (.refl t _) (.write hfree _) (.inr ⟨tx, ht⟩)
    (fun e v hv => ⟨(hp e v hv).1, (hp e v hv).2.1, hdup⟩) (fun a v hv => ?_)
    ⟨fun hd => absurd hd hdup, fun _ => (h.running t tx ht).inserted hphase, fun he => ?_,
      fun hl => ?_, fun hap => ?_⟩
  · rcases eq_or_ne a tx.trade.account with rfl | haa
    · rw [Table.write_held_self] at hv
      exact ⟨⟨row, (Prod.mk.inj (Option.some.inj hv)).2.symm⟩, rfl, hdup, hins⟩
    · rw [Table.write_held_of_ne haa] at hv
      exact absurd (ha a v hv).2.1.symm haa
  · obtain ⟨hnone, rfl⟩ := hensured he
    exact .inr ⟨hnone, hself⟩
  · obtain rfl := hlocked hl
    exact hself
  · obtain rfl := happlied hap
    exact hself

theorem Inv.account (h : Inv s) (ht : s.txs t = .running tx) (hphase : tx.phase = .inserted)
    {row : Account} (hrow : s.accounts.visible t tx.trade.account = some row) :
    Inv (s.put t s.processed s.accounts { tx with phase := .ensured }) := by
  obtain ⟨hp, ha⟩ := h.held_of_running ht
  have hnot : ¬ s.accounts.Holds t tx.trade.account := fun ⟨v, hv⟩ => (ha _ v hv).2.2.2 hphase
  rw [Table.visible_of_not_holds hnot] at hrow
  refine h.put (.refl t _) (.refl t _) (.inr ⟨tx, ht⟩)
    (fun e v hv => ⟨(hp e v hv).1, (hp e v hv).2.1, nofun⟩)
    (fun a v hv => absurd hphase (ha a v hv).2.2.2)
    ⟨nofun, fun _ => (h.running t tx ht).inserted (by rw [hphase]; nofun),
      fun _ => .inl ⟨⟨row, hrow⟩, hnot⟩, nofun, nofun⟩

/-- **The row that a transaction locks is the one to credit.** -/
theorem Inv.visible_base (h : Inv s) (ht : s.txs t = .running tx) (hphase : tx.phase = .ensured) :
    s.accounts.visible t tx.trade.account = some (s.base tx.trade.account) := by
  unfold State.base
  rcases (h.running t tx ht).ensured hphase with ⟨⟨row, hrow⟩, hnot⟩ | ⟨hnone, hheld⟩
  · rw [Table.visible_of_not_holds hnot, hrow]
    rfl
  · rw [Table.visible_of_held hheld, hnone]
    rfl

/-- The serial ledger applies every logged trade. -/
theorem Inv.firsts_log (h : Inv s) :
    Once.firsts Ledger.empty.processed (s.log.map Prod.snd) = s.log.map Prod.snd := by
  refine Once.firsts_eq_self ?_ fun m _ => List.not_mem_nil
  rw [List.map_map]
  exact h.nodup

theorem Inv.serial_processed (h : Inv s) : s.serial.processed = s.log.map fun p => p.2.1 := by
  rw [State.serial, applyAll_processed, h.firsts_log, List.map_map]
  rfl

/-- **The next committed trade is the next serial trade.** -/
theorem serial_concat (h : Inv s) {e : EventId} (he : s.processed.rows e ≠ some ())
    (trade : ParsedTrade) (a : PyStr) :
    (applyAll .empty ((s.log ++ [(t, e, trade)]).map Prod.snd)).accounts a =
      credit s.accounts.rows trade a := by
  have hnew : e ∉ s.serial.processed := by
    rw [h.serial_processed, ← h.processed]
    exact he
  have hrows : s.accounts.rows = s.serial.accounts := funext h.accounts
  rw [List.map_append, List.map_singleton, applyAll, List.foldl_append]
  change (applyTradeSafe s.serial e trade).2.accounts a = _
  rw [applyTradeSafe, if_neg hnew, hrows]
  exact congrFun (update_ensureAccountRow s.serial.accounts trade) a

/-- What a commit leaves of the tables. -/
theorem Inv.rows_commit (h : Inv s) (ht : s.txs t = .running tx) :
    (∀ e, s.processed.rows e = some () → s.processed.visible t e = some ()) ∧
    ∀ a, (∃ row, s.accounts.rows a = some row) → ∃ row, s.accounts.visible t a = some row := by
  obtain ⟨hp, ha⟩ := h.held_of_running ht
  refine ⟨fun e he => ?_, fun a hrow => ?_⟩
  · by_cases hd : s.processed.Holds t e
    · obtain ⟨v, hv⟩ := hd
      rw [Table.visible_of_held hv]
      exact (hp e v hv).1
    · exact (Table.visible_of_not_holds hd).trans he
  · by_cases hd : s.accounts.Holds t a
    · obtain ⟨v, hv⟩ := hd
      rw [Table.visible_of_held hv]
      exact (ha a v hv).1
    · rw [Table.visible_of_not_holds hd]
      exact hrow

/-- What a commit and an abort have in common: the locks of `t` are gone, and the rows that others
hold stay. -/
theorem Inv.finish (h : Inv s) (ht : s.txs t = .running tx)
    (hprocessed : ∀ e t' v, s'.processed.held e = some (t', v) ↔
      s.processed.held e = some (t', v) ∧ t' ≠ t)
    (haccounts : ∀ a t' v, s'.accounts.held a = some (t', v) ↔
      s.accounts.held a = some (t', v) ∧ t' ≠ t)
    (htxs : ∀ t' ≠ t, s'.txs t' = s.txs t') (hdone : ∀ tx, s'.txs t ≠ .running tx)
    (hrows : s'.processed.rows = s.processed.visible t ∨ s'.processed.rows = s.processed.rows)
    (hrows' : s'.accounts.rows = s.accounts.visible t ∨ s'.accounts.rows = s.accounts.rows)
    (hacc : ∀ a, s'.accounts.rows a = s'.serial.accounts a)
    (hproc : ∀ e, s'.processed.rows e = some () ↔ e ∈ s'.log.map fun p => p.2.1)
    (hnodup : (s'.log.map fun p => p.2.1).Nodup)
    (hlog : ∀ t e trade, (t, e, trade) ∈ s'.log ↔ s'.txs t = .committed e trade .applied) :
    Inv s' := by
  have hrunning : ∀ t' tx', s'.txs t' = .running tx' → t' ≠ t ∧ s.txs t' = .running tx' := by
    intro t' tx' ht'
    have hne : t' ≠ t := by
      rintro rfl
      exact hdone tx' ht'
    exact ⟨hne, htxs t' hne ▸ ht'⟩
  refine ⟨hacc, hproc, hnodup, hlog, fun e t' v hv => ?heldProcessed, fun a t' v hv => ?heldAccounts,
    fun t' tx' ht' => ?running⟩
  case heldProcessed =>
    obtain ⟨hv', hne⟩ := (hprocessed e t' v).1 hv
    obtain ⟨hsome, tx', ht', hrest⟩ := h.heldProcessed e t' v hv'
    exact ⟨hsome, tx', (htxs t' hne).trans ht', hrest⟩
  case heldAccounts =>
    obtain ⟨hv', hne⟩ := (haccounts a t' v).1 hv
    obtain ⟨hsome, tx', ht', hrest⟩ := h.heldAccounts a t' v hv'
    exact ⟨hsome, tx', (htxs t' hne).trans ht', hrest⟩
  case running =>
    obtain ⟨hne, ht''⟩ := hrunning t' tx' ht'
    have hother : ∀ {κ ρ : Type} [DecidableEq κ] {T : Table Tid κ ρ} {k : κ},
        T.Holds t' k → T.visible t k = T.rows k := by
      rintro κ ρ _ T k ⟨v, hv⟩
      exact Table.visible_of_held_ne hv hne
    refine (h.running t' tx' ht'').frame (fun e v => (hprocessed e t' v).trans (and_iff_left hne))
      (fun e he => ?_) (fun e he => ?_) (fun a v => (haccounts a t' v).trans (and_iff_left hne))
      (fun a hrow => ?_) fun a ha => ?_
    · rcases hrows with hrows | hrows <;> rw [hrows]
      · exact (h.rows_commit ht).1 e he
      · exact he
    · rcases hrows with hrows | hrows <;> rw [hrows]
      exact hother he
    · rcases hrows' with hrows' | hrows' <;> rw [hrows']
      · exact (h.rows_commit ht).2 a hrow
      · exact hrow
    · rcases hrows' with hrows' | hrows' <;> rw [hrows']
      exact hother ha

theorem Inv.commit (h : Inv s) (ht : s.txs t = .running tx) (hphase : tx.phase = .applied) :
    Inv (s.commit t tx .applied) := by
  obtain ⟨hp, ha⟩ := h.held_of_running ht
  have htx := h.running t tx ht
  obtain ⟨hheld, hnone⟩ := htx.inserted (by simp [hphase])
  have hfresh : s.processed.rows tx.eventId ≠ some () := by simp [hnone]
  have hlogged : tx.eventId ∉ s.log.map fun p => p.2.1 := fun hmem =>
    hfresh ((h.processed _).2 hmem)
  refine h.finish ht (fun _ _ _ => Table.commit_held_iff) (fun _ _ _ => Table.commit_held_iff)
    (fun t' hne => Function.update_of_ne hne _ _) (fun tx' => ?done) (.inl rfl) (.inl rfl)
    (fun a => ?accounts) (fun e => ?processed) ?nodup (fun t' e trade => ?log)
  case done => simp [State.commit]
  case accounts =>
    refine Eq.trans ?_ (serial_concat h hfresh tx.trade a).symm
    change s.accounts.visible t a = _
    rcases eq_or_ne a tx.trade.account with rfl | haa
    · rw [Table.visible_of_held (htx.applied hphase), credit, Function.update_self]
      rfl
    · have hnot : ¬ s.accounts.Holds t a := by
        rintro ⟨v, hv⟩
        exact haa (ha a v hv).2.1.symm
      rw [Table.visible_of_not_holds hnot, credit, Function.update_of_ne haa]
  case processed =>
    change s.processed.visible t e = some () ↔ _
    simp only [State.commit, List.map_append, List.map_singleton, List.mem_append,
      List.mem_singleton]
    rcases eq_or_ne e tx.eventId with rfl | he
    · simp [Table.visible_of_held hheld]
    · have hnot : ¬ s.processed.Holds t e := by
        rintro ⟨v, hv⟩
        exact he (hp e v hv).2.1.symm
      rw [Table.visible_of_not_holds hnot, h.processed e]
      exact (or_iff_left he).symm
  case nodup =>
    simp only [State.commit, List.map_append, List.map_singleton]
    refine List.nodup_append.2 ⟨h.nodup, List.nodup_singleton _, fun e he e' he' heq => ?_⟩
    obtain rfl := List.mem_singleton.1 he'
    exact hlogged (heq ▸ he)
  case log =>
    simp only [State.commit, List.mem_append, List.mem_singleton, Prod.mk.injEq]
    rcases eq_or_ne t' t with rfl | hne
    · have hold : (t', e, trade) ∉ s.log := fun hmem => by
        rw [h.log, ht] at hmem
        cases hmem
      simp [hold, eq_comm]
    · simp [hne, h.log]

/-- A duplicate commits nothing. -/
theorem Inv.skip (h : Inv s) (ht : s.txs t = .running tx) (hphase : tx.phase = .duplicate) :
    Inv (s.commit t tx .duplicate) := by
  obtain ⟨hp, ha⟩ := h.held_of_running ht
  have hrow : s.processed.visible t = s.processed.rows := funext fun e =>
    Table.visible_of_not_holds fun ⟨v, hv⟩ => (hp e v hv).2.2 hphase
  have hrow' : s.accounts.visible t = s.accounts.rows := funext fun a =>
    Table.visible_of_not_holds fun ⟨v, hv⟩ => (ha a v hv).2.2.1 hphase
  refine h.finish ht (fun _ _ _ => Table.commit_held_iff) (fun _ _ _ => Table.commit_held_iff)
    (fun t' hne => Function.update_of_ne hne _ _) (fun tx' => ?_) (.inl rfl) (.inl rfl)
    (fun a => (congrFun hrow' a).trans (h.accounts a)) (fun e => ?_) h.nodup
    (fun t' e trade => ?_)
  · simp [State.commit]
  · exact (Eq.congr_left (congrFun hrow e)).trans (h.processed e)
  · rw [show (s.commit t tx .duplicate).log = s.log from rfl, h.log]
    rcases eq_or_ne t' t with rfl | hne
    · simp [State.commit, ht]
    · simp [State.commit, hne]

theorem Inv.abort (h : Inv s) (ht : s.txs t = .running tx) : Inv (s.abort t) := by
  refine h.finish ht (fun _ _ _ => Table.rollback_held_iff) (fun _ _ _ => Table.rollback_held_iff)
    (fun t' hne => Function.update_of_ne hne _ _) (fun tx' => ?_) (.inr rfl) (.inr rfl) h.accounts
    h.processed h.nodup (fun t' e trade => ?_)
  · simp [State.abort]
  · rw [show (s.abort t).log = s.log from rfl, h.log]
    rcases eq_or_ne t' t with rfl | hne
    · simp [State.abort, ht]
    · simp [State.abort, hne]

end Moves

/-- **Every move keeps the invariant.** -/
theorem Inv.move {a : Act} {s s' : State} (h : Inv s) (hmove : Move a s s') : Inv s' := by
  cases hmove with
  | duplicate ht hfree hrow => exact h.duplicate ht hrow
  | insert ht hfree hrow => exact h.insert ht hfree hrow
  | account ht hphase hrow => exact h.account ht hphase hrow
  | opened ht hphase hrow hfree =>
    refine h.writeAccount ht (by rw [hphase]; nofun) hfree nofun nofun (fun _ => ⟨?_, rfl⟩) nofun
      nofun
    rw [← Table.visible_of_not_holds fun ⟨v, hv⟩ =>
      ((h.held_of_running ht).2 _ v hv).2.2.2 hphase]
    exact hrow
  | lock ht hphase hfree hrow =>
    refine h.writeAccount ht (by rw [hphase]; nofun) hfree nofun nofun nofun (fun _ => ?_) nofun
    rw [h.visible_base ht hphase] at hrow
    exact (Option.some.inj hrow).symm
  | flush ht hphase hrow =>
    have hheld := (h.running _ _ ht).locked hphase
    rw [Table.visible_of_held hheld] at hrow
    obtain rfl := Option.some.inj hrow
    exact h.writeAccount ht (by rw [hphase]; nofun) (Table.free_iff.2 (.inr ⟨_, hheld⟩)) nofun nofun
      nofun nofun fun _ => rfl
  | commit ht hphase => exact h.commit ht hphase
  | skip ht hphase => exact h.skip ht hphase
  | abort ht hcommit => exact h.abort ht

theorem inv_init : Inv init where
  accounts _ := rfl
  processed _ := by simp [init]
  nodup := .nil
  log _ _ _ := by simp [init]
  heldProcessed _ _ _ hv := by simp [init] at hv
  heldAccounts _ _ _ hv := by simp [init] at hv
  running _ _ ht := by simp [init] at ht

theorem inv_of_reachable {s : State} (h : bank.Reachable s) : Inv s :=
  h.invariant inv_init fun _ _ _ hinv hstep => hinv.move (move_of_step hstep)

/-! ## Transactions and their trades -/

section Transactions

variable {a : Act} {s s' : State}

/-- What a step does to the state of its transaction, and that it leaves the others alone. -/
theorem txs_of_move (hmove : Move a s s') : (∀ t, t ≠ a.tid → s'.txs t = s.txs t) ∧
    ((∃ e trade phase, a = .insertProcessed a.tid e trade ∧ s.txs a.tid = .unused ∧
        s'.txs a.tid = .running ⟨e, trade, phase⟩) ∨
      ∃ tx, s.txs a.tid = .running tx ∧
        ((∃ phase, s'.txs a.tid = .running { tx with phase }) ∨
          (∃ outcome, s'.txs a.tid = .committed tx.eventId tx.trade outcome) ∨
          s'.txs a.tid = .aborted)) := by
  have hother : ∀ {t : Tid} {v : TxState} (t' : Tid), t' ≠ t →
      Function.update s.txs t v t' = s.txs t' := fun t' hne => Function.update_of_ne hne _ _
  have hself : ∀ {t : Tid} {v : TxState}, Function.update s.txs t v t = v :=
    Function.update_self ..
  cases hmove with
  | duplicate ht hfree hrow => exact ⟨hother, .inl ⟨_, _, _, rfl, ht, hself⟩⟩
  | insert ht hfree hrow => exact ⟨hother, .inl ⟨_, _, _, rfl, ht, hself⟩⟩
  | account ht hphase hrow => exact ⟨hother, .inr ⟨_, ht, .inl ⟨_, hself⟩⟩⟩
  | opened ht hphase hrow hfree => exact ⟨hother, .inr ⟨_, ht, .inl ⟨_, hself⟩⟩⟩
  | lock ht hphase hfree hrow => exact ⟨hother, .inr ⟨_, ht, .inl ⟨_, hself⟩⟩⟩
  | flush ht hphase hrow => exact ⟨hother, .inr ⟨_, ht, .inl ⟨_, hself⟩⟩⟩
  | commit ht hphase => exact ⟨hother, .inr ⟨_, ht, .inr (.inl ⟨_, hself⟩)⟩⟩
  | skip ht hphase => exact ⟨hother, .inr ⟨_, ht, .inr (.inl ⟨_, hself⟩)⟩⟩
  | abort ht hcommit => exact ⟨hother, .inr ⟨_, ht, .inr (.inr hself)⟩⟩

/-- A processed event stays processed. -/
theorem Inv.processed_of_move (h : Inv s) (hmove : Move a s s') {e : EventId}
    (he : s.processed.rows e = some ()) : s'.processed.rows e = some () := by
  cases hmove with
  | commit ht hphase => exact (h.rows_commit ht).1 e he
  | skip ht hphase => exact (h.rows_commit ht).1 e he
  | _ => exact he

/-- **A transaction that commits leaves its event processed**, whether it has applied the trade or
found a duplicate. -/
theorem Inv.processed_of_commit (h : Inv s) {t : Tid} (hmove : Move (.commit t) s s') :
    ∃ tx, s.txs t = .running tx ∧ s'.processed.rows tx.eventId = some () := by
  cases hmove with
  | @commit _ _ tx ht hphase =>
    have hheld := ((h.running t tx ht).inserted (by rw [hphase]; nofun)).1
    exact ⟨tx, ht, Table.visible_of_held hheld⟩
  | @skip _ _ tx ht hphase =>
    exact ⟨tx, ht, (h.rows_commit ht).1 _ ((h.running t tx ht).duplicate hphase)⟩
  | abort ht hcommit => exact absurd rfl (hcommit t)

end Transactions

/-! ## Serializability -/

/-- The sum of the deltas of the committed trades of an account. -/
def State.credits (s : State) (account : PyStr) : Cents :=
  ((s.log.filter fun p => p.2.2.account = account).map fun p => p.2.2.delta).sum

theorem balance_creditAll (trades : List ParsedTrade) (row : Option Account) :
    ((creditAll row trades).getD .opened).balance =
      (row.getD .opened).balance + (trades.map (·.delta)).sum := by
  induction trades generalizing row with
  | nil => simp [creditAll]
  | cons trade trades ih =>
    have hstep := ih (some (creditRow trade (row.getD .opened)))
    have hcredit : (creditRow trade (row.getD .opened)).balance =
        (row.getD .opened).balance + trade.delta := congrArg Prod.fst (core_creditRow trade _)
    rw [Option.getD_some, hcredit, add_assoc] at hstep
    rw [List.map_cons, List.sum_cons]
    exact hstep

/-- The serial ledger credits the logged trades. -/
theorem Inv.balance (h : Inv s) (account : PyStr) :
    ((s.accounts.rows account).getD .opened).balance = startingBalance + s.credits account := by
  rw [h.accounts, State.serial, applyAll_accounts, balance_creditAll, credited, h.firsts_log,
    List.map_map, List.filter_map, List.map_map]
  rfl

theorem exists_creditAll (trades : List ParsedTrade) (row : Account) :
    ∃ row', creditAll (some row) trades = some row' := by
  induction trades generalizing row with
  | nil => exact ⟨row, rfl⟩
  | cons trade trades ih => exact ih _

/-- An account with a logged trade has a row. -/
theorem Inv.exists_account (h : Inv s) {t : Tid} {e : EventId} {trade : ParsedTrade}
    (hmem : (t, e, trade) ∈ s.log) : ∃ row, s.accounts.rows trade.account = some row := by
  rw [h.accounts, State.serial, applyAll_accounts, credited, h.firsts_log]
  have htrade : trade ∈ ((s.log.map Prod.snd).map Prod.snd).filter fun x =>
      x.account = trade.account :=
    List.mem_filter.2 ⟨List.mem_map_of_mem (List.mem_map_of_mem hmem), decide_eq_true rfl⟩
  cases htrades : ((s.log.map Prod.snd).map Prod.snd).filter fun x => x.account = trade.account with
  | nil =>
    rw [htrades] at htrade
    cases htrade
  | cons first rest => exact exists_creditAll rest _

/-- **The committed trades of the bank are serial.** In every state: an event is processed exactly
if one committed transaction applied it, and then only one did; the log lists the transactions that
committed as applied; the balance of every account is the starting balance plus the deltas of its
logged trades; and the rows are those of applying the logged trades one after another. -/
theorem serializable {s : State} (h : bank.Reachable s) :
    (∀ e, s.processed.rows e = some () → ∃! t, ∃ trade, s.txs t = .committed e trade .applied) ∧
    (∀ t e trade, s.txs t = .committed e trade .applied → s.processed.rows e = some ()) ∧
    (s.log.Nodup ∧ ∀ t e trade, (t, e, trade) ∈ s.log ↔ s.txs t = .committed e trade .applied) ∧
    (∀ account row, s.accounts.rows account = some row →
      row.balance = startingBalance + s.credits account) ∧
    s.accounts.rows = (applyAll .empty (s.log.map Prod.snd)).accounts ∧
    ∀ e, s.processed.rows e = some () ↔
      e ∈ (applyAll .empty (s.log.map Prod.snd)).processed := by
  have hinv := inv_of_reachable h
  refine ⟨fun e he => ?_, fun t e trade ht => ?_, ⟨hinv.nodup.of_map _, hinv.log⟩,
    fun account row hrow => ?_, funext hinv.accounts, fun e => ?_⟩
  · obtain ⟨⟨t, e', trade⟩, hmem, rfl⟩ := List.mem_map.1 ((hinv.processed e).1 he)
    refine ⟨t, ⟨trade, (hinv.log _ _ _).1 hmem⟩, ?_⟩
    rintro t' ⟨trade', ht'⟩
    have hmem' := (hinv.log _ _ _).2 ht'
    exact congrArg Prod.fst (List.inj_on_of_nodup_map hinv.nodup hmem' hmem rfl)
  · exact (hinv.processed e).2 (List.mem_map.2 ⟨_, (hinv.log _ _ _).2 ht, rfl⟩)
  · have hbalance := hinv.balance account
    rw [hrow] at hbalance
    exact hbalance
  · rw [hinv.processed, ← hinv.serial_processed]
    rfl

/-- Two trades of one account, whose transactions overlap. -/
theorem serializable_overlap : ∃ s : State, bank.Reachable s ∧
    ∃ row, s.accounts.rows [] = some row ∧ row.balance = startingBalance + s.credits [] ∧
      s.log.length = 2 := by
  have hrun : (bank.run [.insertProcessed 1 1 ⟨[], 5, 1, []⟩, .insertProcessed 2 2 ⟨[], 7, 2, []⟩,
      .ensureAccount 1, .lockAccount 1, .flush 1, .commit 1, .ensureAccount 2, .lockAccount 2,
      .flush 2, .commit 2] init).map (fun s => (s.accounts.rows []).isSome && s.log.length = 2) =
      some true := by
    decide +kernel
  obtain ⟨s, hs, hp⟩ := Machine.exists_reachable_of_run (fun _ _ => True)
    (fun _ _ _ => trivial) hrun
  simp only [Bool.and_eq_true, decide_eq_true_eq, Option.isSome_iff_exists] at hp
  obtain ⟨⟨row, hrow⟩, hlen⟩ := hp
  exact ⟨s, hs, row, hrow, (serializable hs).2.2.2.1 [] row hrow, hlen⟩

end Hookit.Bank
