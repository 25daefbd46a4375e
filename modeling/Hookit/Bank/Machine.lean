import Hookit.Bank.Convergence
import Hookit.Foundations.Machine
import Hookit.Foundations.Table

/-!
# Concurrent trades at the safe bank

Any number of transactions around `apply_trade_safe` at one bank, one action a statement. An
`INSERT ... ON CONFLICT DO NOTHING` is not enabled while another transaction holds an uncommitted
row with the same key; it inserts where there is none and does nothing where there is one. The
blocking `SELECT ... FOR UPDATE` is not enabled while another transaction holds the row.

`log` is a history variable: the committed transactions that returned `applied`, in commit order.
-/

namespace Hookit.Bank

open Foundations

abbrev Tid := ℕ

/-- The last statement of `apply_trade_safe` that has been executed. -/
inductive Phase
  /-- The `INSERT` into `DemoLedgerProcessed` found a row. -/
  | duplicate
  | inserted
  /-- After `_ensure_account_row`. -/
  | ensured
  /-- After the `SELECT ... FOR UPDATE`. -/
  | locked
  /-- After the flush. -/
  | applied
  deriving DecidableEq

structure Tx where
  eventId : EventId
  trade : ParsedTrade
  phase : Phase

inductive TxState
  | unused
  | running (tx : Tx)
  | committed (eventId : EventId) (trade : ParsedTrade) (outcome : Outcome)
  | aborted

structure State where
  processed : Table Tid EventId Unit
  accounts : Table Tid PyStr Account
  txs : Tid → TxState
  log : List (Tid × EventId × ParsedTrade)

def init : State where
  processed := .empty
  accounts := .empty
  txs _ := .unused
  log := []

namespace State

def put (s : State) (t : Tid) (processed : Table Tid EventId Unit)
    (accounts : Table Tid PyStr Account) (tx : Tx) : State :=
  { s with processed, accounts, txs := Function.update s.txs t (.running tx) }

def commit (s : State) (t : Tid) (tx : Tx) : Outcome → State
  | .applied =>
    { processed := s.processed.commit t
      accounts := s.accounts.commit t
      txs := Function.update s.txs t (.committed tx.eventId tx.trade .applied)
      log := s.log ++ [(t, tx.eventId, tx.trade)] }
  | .duplicate =>
    { s with
      processed := s.processed.commit t
      accounts := s.accounts.commit t
      txs := Function.update s.txs t (.committed tx.eventId tx.trade .duplicate) }

def abort (s : State) (t : Tid) : State :=
  { s with
    processed := s.processed.rollback t
    accounts := s.accounts.rollback t
    txs := Function.update s.txs t .aborted }

end State

inductive Act
  | insertProcessed (t : Tid) (eventId : EventId) (trade : ParsedTrade)
  | ensureAccount (t : Tid)
  | lockAccount (t : Tid)
  | flush (t : Tid)
  | commit (t : Tid)
  | abort (t : Tid)

/-- The statements of a transaction after the first. -/
def stepTx (t : Tid) (tx : Tx) : Act → State → Option State
  | .ensureAccount _, s =>
    if tx.phase = .inserted then
      match s.accounts.visible t tx.trade.account with
      | some _ => some (s.put t s.processed s.accounts { tx with phase := .ensured })
      | none =>
        if s.accounts.free t tx.trade.account then
          some (s.put t s.processed (s.accounts.write t tx.trade.account (some .opened))
            { tx with phase := .ensured })
        else none
    else none
  | .lockAccount _, s =>
    if tx.phase = .ensured ∧ s.accounts.free t tx.trade.account = true then
      match s.accounts.visible t tx.trade.account with
      | some row => some (s.put t s.processed (s.accounts.write t tx.trade.account (some row))
          { tx with phase := .locked })
      -- `scalar_one` raises
      | none => some (s.abort t)
    else none
  | .flush _, s =>
    if tx.phase = .locked then
      match s.accounts.visible t tx.trade.account with
      | some row => some (s.put t s.processed
          (s.accounts.write t tx.trade.account (some (creditRow tx.trade row)))
          { tx with phase := .applied })
      | none => none
    else none
  | .commit _, s =>
    if tx.phase = .applied then some (s.commit t tx .applied)
    else if tx.phase = .duplicate then some (s.commit t tx .duplicate)
    else none
  | .abort _, s => some (s.abort t)
  | .insertProcessed _ _ _, _ => none

def Act.tid : Act → Tid
  | .insertProcessed t _ _ | .ensureAccount t | .lockAccount t | .flush t | .commit t
  | .abort t => t

def step (a : Act) (s : State) : Option State :=
  match s.txs a.tid with
  | .unused =>
    match a with
    | .insertProcessed t eventId trade =>
      if s.processed.free t eventId then
        match s.processed.visible t eventId with
        | some _ => some (s.put t s.processed s.accounts ⟨eventId, trade, .duplicate⟩)
        | none => some (s.put t (s.processed.write t eventId (some ())) s.accounts
            ⟨eventId, trade, .inserted⟩)
      else none
    | _ => none
  | .running tx => stepTx a.tid tx a s
  | .committed _ _ _ | .aborted => none

/-- The tables of one bank with their transactions. -/
def bank : Machine State Act where
  init := init
  step := step

/-! ## Moves -/

/-- The outcomes of a step. -/
inductive Move : Act → State → State → Prop
  | duplicate {s : State} {t : Tid} {eventId : EventId} {trade : ParsedTrade}
      (ht : s.txs t = .unused) (hfree : s.processed.free t eventId = true)
      (hrow : s.processed.visible t eventId = some ()) :
      Move (.insertProcessed t eventId trade) s
        (s.put t s.processed s.accounts ⟨eventId, trade, .duplicate⟩)
  | insert {s : State} {t : Tid} {eventId : EventId} {trade : ParsedTrade}
      (ht : s.txs t = .unused) (hfree : s.processed.free t eventId = true)
      (hrow : s.processed.visible t eventId = none) :
      Move (.insertProcessed t eventId trade) s
        (s.put t (s.processed.write t eventId (some ())) s.accounts ⟨eventId, trade, .inserted⟩)
  | account {s : State} {t : Tid} {tx : Tx} {row : Account} (ht : s.txs t = .running tx)
      (hphase : tx.phase = .inserted) (hrow : s.accounts.visible t tx.trade.account = some row) :
      Move (.ensureAccount t) s (s.put t s.processed s.accounts { tx with phase := .ensured })
  | opened {s : State} {t : Tid} {tx : Tx} (ht : s.txs t = .running tx)
      (hphase : tx.phase = .inserted) (hrow : s.accounts.visible t tx.trade.account = none)
      (hfree : s.accounts.free t tx.trade.account = true) :
      Move (.ensureAccount t) s
        (s.put t s.processed (s.accounts.write t tx.trade.account (some .opened))
          { tx with phase := .ensured })
  | lock {s : State} {t : Tid} {tx : Tx} {row : Account} (ht : s.txs t = .running tx)
      (hphase : tx.phase = .ensured) (hfree : s.accounts.free t tx.trade.account = true)
      (hrow : s.accounts.visible t tx.trade.account = some row) :
      Move (.lockAccount t) s
        (s.put t s.processed (s.accounts.write t tx.trade.account (some row))
          { tx with phase := .locked })
  | flush {s : State} {t : Tid} {tx : Tx} {row : Account} (ht : s.txs t = .running tx)
      (hphase : tx.phase = .locked) (hrow : s.accounts.visible t tx.trade.account = some row) :
      Move (.flush t) s
        (s.put t s.processed (s.accounts.write t tx.trade.account (some (creditRow tx.trade row)))
          { tx with phase := .applied })
  | commit {s : State} {t : Tid} {tx : Tx} (ht : s.txs t = .running tx)
      (hphase : tx.phase = .applied) : Move (.commit t) s (s.commit t tx .applied)
  | skip {s : State} {t : Tid} {tx : Tx} (ht : s.txs t = .running tx)
      (hphase : tx.phase = .duplicate) : Move (.commit t) s (s.commit t tx .duplicate)
  | abort {s : State} {a : Act} {tx : Tx} (ht : s.txs a.tid = .running tx)
      (hcommit : ∀ t, a ≠ .commit t) : Move a s (s.abort a.tid)

/-- **Every step is a move.** -/
theorem move_of_step {a : Act} {s s' : State} (h : step a s = some s') : Move a s s' := by
  unfold step at h
  split at h
  · rename_i ht
    split at h
    · obtain ⟨hfree, h⟩ := Option.ite_none_right_eq_some.1 h
      split at h <;> obtain rfl := Option.some.inj h
      · exact .duplicate ht hfree ‹_›
      · exact .insert ht hfree ‹_›
    · cases h
  · rename_i tx ht
    have habort : (∀ t, a ≠ .commit t) → Move a s (s.abort a.tid) := .abort ht
    cases a with
    | insertProcessed t eventId trade => cases h
    | ensureAccount t =>
      obtain ⟨hphase, h⟩ := Option.ite_none_right_eq_some.1 h
      split at h
      · obtain rfl := Option.some.inj h
        exact .account ht hphase ‹_›
      · obtain ⟨hfree, ⟨⟩⟩ := Option.ite_none_right_eq_some.1 h
        exact .opened ht hphase ‹_› hfree
    | lockAccount t =>
      obtain ⟨⟨hphase, hfree⟩, h⟩ := Option.ite_none_right_eq_some.1 h
      split at h <;> obtain rfl := Option.some.inj h
      · exact .lock ht hphase hfree ‹_›
      · exact habort nofun
    | flush t =>
      obtain ⟨hphase, h⟩ := Option.ite_none_right_eq_some.1 h
      split at h
      · obtain rfl := Option.some.inj h
        exact .flush ht hphase ‹_›
      · cases h
    | commit t =>
      simp only [stepTx] at h
      split_ifs at h with hphase hphase' <;> obtain rfl := Option.some.inj h
      · exact .commit ht hphase
      · exact .skip ht hphase'
    | abort t =>
      obtain rfl := Option.some.inj h
      exact habort nofun
  · cases h
  · cases h

end Hookit.Bank
