import Hookit.Bank.Receiver
import Hookit.Foundations.Raise
import Hookit.Ledger.Trade

/-!
# `app/services/showcase_ledger.py`: the banks

How the two banks apply a trade to their rows. Bank A reads a balance (`readNaive`) and later
writes what it has read plus the amount (`writeNaive`); Bank B checks the event id, locks the row
and updates it in one transaction (`applyTradeSafe`).

A statement raises where a value does not fit its column (`storeAccount`) or a stored time is not
one that psycopg reads; `applyTradeSafe_cases` says when Bank B's does not and what it leaves.
-/

namespace Hookit.Ledger

open Foundations Foundations.PyStr Bank

/-! ## Modes -/

/-- `BankMode.value`. -/
def modeValue : BankMode → PyStr
  | .healthy => ofString "healthy"
  | .flaky => ofString "flaky"
  | .down => ofString "down"

/-- `BankMode(value)`. -/
def modeOf? (value : PyStr) : Option BankMode :=
  [BankMode.healthy, .flaky, .down].find? fun mode => modeValue mode = value

/-- `get_bank_mode`. -/
def getBankMode (db : Database) (endpointId : Uuid) : BankMode :=
  match db.receiverHealth.get? endpointId with
  | none => .healthy
  | some row => (modeOf? row.mode).getD .healthy

/-! ## Trades -/

/-- The column `balance` is `numeric(18, 2)`. -/
def FitsBalance (balance : Cents) : Prop := balance.natAbs < 10 ^ 18

instance (balance : Cents) : Decidable (FitsBalance balance) := by
  unfold FitsBalance
  infer_instance

/-- The columns take the values of the row. -/
def storableAccount (row : Account) : Bool :=
  FitsBalance row.balance ∧ row.status.all storable

/-- `UPDATE demo_ledger_accounts`. -/
def storeAccount (db : Database) (endpointId : Uuid) (account : PyStr) (row : Account) :
    Except PyError Database :=
  if storableAccount row then
    .ok (db.withAccounts (db.ledgerAccounts.modifyAt (endpointId, account) fun _ => row))
  else .error .dataError

/-- `_ensure_account_row`. -/
def ensureAccountRow (P : Platform) (db : Database) (endpointId : Uuid) (account : PyStr) :
    Except PyError Database :=
  if (db.ledgerAccounts.get? (endpointId, account)).isSome then .ok db
  else if account.storable ∧ P.indexable account then
    .ok (db.withAccounts (db.ledgerAccounts.insert (endpointId, account) .opened))
  else .error .dataError

/-- `apply_trade_naive` up to the pause: the balance that it reads. -/
def readNaive (P : Platform) (db : Database) (endpointId : Uuid) (trade : ParsedTrade) :
    Except PyError (Cents × Database) := do
  let db ← ensureAccountRow P db endpointId trade.account
  let row ← orRaise .noResultFound (db.ledgerAccounts.get? (endpointId, trade.account))
  return (row.balance, db)

/-- `apply_trade_naive` after the pause. -/
def writeNaive (db : Database) (endpointId : Uuid) (trade : ParsedTrade) (readBalance : Cents) :
    Except PyError Database :=
  storeAccount db endpointId trade.account
    ⟨readBalance + trade.delta, some trade.description, some trade.executedAt⟩

/-- `SELECT … FOR UPDATE` of an account's row. -/
def lockAccount (P : Platform) (db : Database) (endpointId : Uuid) (account : PyStr) :
    Except PyError Account := do
  let row ← orRaise .noResultFound (db.ledgerAccounts.get? (endpointId, account))
  if row.statusAsOf.all P.loadable then return row else .error .dataError

/-- `apply_trade_safe`. -/
def applyTradeSafe (P : Platform) (db : Database) (endpointId eventId : Uuid)
    (trade : ParsedTrade) : Except PyError (Outcome × Database) :=
  if (db.ledgerProcessed.get? (endpointId, eventId)).isSome then .ok (.duplicate, db)
  else do
    let db := db.withProcessed (db.ledgerProcessed.insert (endpointId, eventId) ())
    let db ← ensureAccountRow P db endpointId trade.account
    let row ← lockAccount P db endpointId trade.account
    return (.applied, ← storeAccount db endpointId trade.account (creditRow trade row))

/-! ## What a statement leaves -/

section Statements

variable {P : Platform} {db db' : Database} {endpointId : Uuid} {account : PyStr} {row : Account}

theorem storeAccount_eq_ok_iff : storeAccount db endpointId account row = .ok db' ↔
    storableAccount row = true ∧
      db' = db.withAccounts (db.ledgerAccounts.modifyAt (endpointId, account) fun _ => row) := by
  unfold storeAccount
  split
  · next h => simp [h, eq_comm]
  · next h => simp [h]

/-- The row that an account has, or opens with. -/
def accountRow (db : Database) (endpointId : Uuid) (account : PyStr) : Account :=
  (db.ledgerAccounts.get? (endpointId, account)).getD .opened

/-- The account has a row, or it can be given one. -/
def CanOpen (P : Platform) (db : Database) (endpointId : Uuid) (account : PyStr) : Prop :=
  db.ledgerAccounts.get? (endpointId, account) = none →
    account.storable = true ∧ P.indexable account = true

theorem ensureAccountRow_eq_ok_iff : ensureAccountRow P db endpointId account = .ok db' ↔
    CanOpen P db endpointId account ∧
      db' = db.withAccounts (db.ledgerAccounts.insert (endpointId, account) .opened) := by
  unfold ensureAccountRow CanOpen
  cases hrow : db.ledgerAccounts.get? (endpointId, account) with
  | some row =>
    rw [if_pos Option.isSome_some, Rows.insert_eq_self hrow]
    simp only [Except.ok.injEq, reduceCtorEq, false_imp_iff, true_and]
    exact eq_comm
  | none =>
    rw [if_neg (by simp)]
    split
    · next h => simp [h, eq_comm]
    · next h => exact iff_of_false (by simp) fun hopen => h (hopen.1 rfl)

theorem get?_insert_opened : (db.ledgerAccounts.insert (endpointId, account) .opened).get?
    (endpointId, account) = some (accountRow db endpointId account) := by
  rw [Rows.get?_insert, if_pos rfl, accountRow]

/-- **Bank A** raises where the account cannot be opened. -/
theorem readNaive_eq_ok_iff {trade : ParsedTrade} {balance : Cents} :
    readNaive P db endpointId trade = .ok (balance, db') ↔
      CanOpen P db endpointId trade.account ∧
      balance = (accountRow db endpointId trade.account).balance ∧
      db' = db.withAccounts (db.ledgerAccounts.insert (endpointId, trade.account) .opened) := by
  simp only [readNaive, bind_eq_ok_iff, ensureAccountRow_eq_ok_iff, orRaise_eq_ok_iff, pure_eq_ok_iff,
    Prod.mk.injEq]
  constructor
  · rintro ⟨_, ⟨hopen, rfl⟩, row, hrow, rfl, rfl⟩
    obtain rfl := Option.some.inj (get?_insert_opened.symm.trans hrow)
    exact ⟨hopen, rfl, rfl⟩
  · rintro ⟨hopen, rfl, rfl⟩
    exact ⟨_, ⟨hopen, rfl⟩, _, get?_insert_opened, rfl, rfl⟩

/-- What must hold for Bank B to apply a trade. -/
structure Applicable (P : Platform) (db : Database) (endpointId : Uuid) (trade : ParsedTrade) :
    Prop where
  canOpen : CanOpen P db endpointId trade.account
  loadable : (accountRow db endpointId trade.account).statusAsOf.all P.loadable = true
  storable : storableAccount (creditRow trade (accountRow db endpointId trade.account)) = true

/-- The rows of Bank B after it has applied a trade. -/
def credited (db : Database) (endpointId eventId : Uuid) (trade : ParsedTrade) : Database :=
  (db.withProcessed (db.ledgerProcessed.insert (endpointId, eventId) ())).withAccounts
    (db.ledgerAccounts.put (endpointId, trade.account)
      (creditRow trade (accountRow db endpointId trade.account)))

/-- **Bank B** applies a trade that it has not processed, if its values fit. -/
theorem applyTradeSafe_cases (P : Platform) (db : Database) (endpointId eventId : Uuid)
    (trade : ParsedTrade) :
    (db.ledgerProcessed.get? (endpointId, eventId) = some () ∧
      applyTradeSafe P db endpointId eventId trade = .ok (.duplicate, db)) ∨
    (db.ledgerProcessed.get? (endpointId, eventId) = none ∧ Applicable P db endpointId trade ∧
      applyTradeSafe P db endpointId eventId trade =
        .ok (.applied, credited db endpointId eventId trade)) ∨
    (db.ledgerProcessed.get? (endpointId, eventId) = none ∧ ¬ Applicable P db endpointId trade ∧
      ∃ e, applyTradeSafe P db endpointId eventId trade = .error e) := by
  cases hprocessed : db.ledgerProcessed.get? (endpointId, eventId) with
  | some u => exact .inl ⟨rfl, by rw [applyTradeSafe, hprocessed]; rfl⟩
  | none =>
    right
    have hok : ∀ r, applyTradeSafe P db endpointId eventId trade = .ok r ↔
        Applicable P db endpointId trade ∧
          r = (.applied, credited db endpointId eventId trade) := by
      intro r
      have hlock : ∀ {db : Database} {row : Account},
          lockAccount P db endpointId trade.account = .ok row ↔
            db.ledgerAccounts.get? (endpointId, trade.account) = some row ∧
              row.statusAsOf.all P.loadable = true := by
        intro db row
        simp only [lockAccount, bind_eq_ok_iff, orRaise_eq_ok_iff]
        constructor
        · rintro ⟨row', hrow, h⟩
          split at h
          · next hload => exact ⟨(pure_eq_ok_iff.1 h) ▸ hrow, (pure_eq_ok_iff.1 h) ▸ hload⟩
          · cases h
        · rintro ⟨hrow, hload⟩
          exact ⟨row, hrow, if_pos hload⟩
      rw [applyTradeSafe, hprocessed, if_neg (by simp)]
      simp only [bind_eq_ok_iff, ensureAccountRow_eq_ok_iff, hlock, storeAccount_eq_ok_iff,
        pure_eq_ok_iff]
      constructor
      · rintro ⟨_, ⟨hopen, rfl⟩, row, ⟨hrow, hload⟩, _, ⟨hstore, rfl⟩, rfl⟩
        obtain rfl := Option.some.inj (get?_insert_opened.symm.trans hrow)
        exact ⟨⟨hopen, hload, hstore⟩, by rw [credited, ← Rows.modifyAt_insert]; rfl⟩
      · rintro ⟨⟨hopen, hload, hstore⟩, rfl⟩
        exact ⟨_, ⟨hopen, rfl⟩, _, ⟨get?_insert_opened, hload⟩, _, ⟨hstore, rfl⟩,
          by rw [credited, ← Rows.modifyAt_insert]; rfl⟩
    by_cases happ : Applicable P db endpointId trade
    · exact .inl ⟨rfl, happ, (hok _).2 ⟨happ, rfl⟩⟩
    · refine .inr ⟨rfl, happ, ?_⟩
      cases hres : applyTradeSafe P db endpointId eventId trade with
      | error e => exact ⟨e, rfl⟩
      | ok r => exact absurd ((hok r).1 hres).1 happ

end Statements

end Hookit.Ledger
