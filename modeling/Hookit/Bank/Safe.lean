import Hookit.Foundations.Once
import Hookit.Models

/-!
# `app/services/showcase_ledger.py`: the safe bank

`apply_trade_safe` at one bank, statement by statement without concurrency (`applyTradeSafe`), and
what it comes to: a receiver that processes each event id once (`applyTradeSafe_eq_receive`), where
processing a trade touches one account (`foldl_credit`). Money is counted in cents.
-/

namespace Hookit.Bank

open Foundations

/-- Money, in cents. -/
abbrev Cents := ℤ

/-- `STARTING_BALANCE`. -/
def startingBalance : Cents := 1000000

/-- `ParsedTrade`. -/
structure ParsedTrade where
  account : PyStr
  delta : Cents
  executedAt : Time
  description : PyStr
  deriving DecidableEq

/-- `DemoLedgerAccount`. -/
structure Account where
  balance : Cents
  status : Option PyStr
  statusAsOf : Option Time
  deriving DecidableEq

/-- The row that `_ensure_account_row` inserts. -/
def Account.opened : Account := ⟨startingBalance, none, none⟩

/-- What `apply_trade_safe` does to the locked row. -/
def creditRow (trade : ParsedTrade) (row : Account) : Account :=
  let row := { row with balance := row.balance + trade.delta }
  if row.statusAsOf.all (fun statusAsOf => statusAsOf < trade.executedAt) then
    { row with status := some trade.description, statusAsOf := some trade.executedAt }
  else row

/-- The rows of one bank in `DemoLedgerProcessed` and in `DemoLedgerAccount`. -/
structure Ledger where
  processed : List EventId
  accounts : PyStr → Option Account

/-- The result of `apply_trade_safe`. -/
inductive Outcome
  | applied
  | duplicate
  deriving DecidableEq, Repr

/-- `_ensure_account_row`. -/
def ensureAccountRow (accounts : PyStr → Option Account) (account : PyStr) :
    PyStr → Option Account :=
  match accounts account with
  | some _ => accounts
  | none => Function.update accounts account (some .opened)

/-- `apply_trade_safe`. -/
def applyTradeSafe (ledger : Ledger) (eventId : EventId) (trade : ParsedTrade) :
    Outcome × Ledger :=
  if eventId ∈ ledger.processed then (.duplicate, ledger)
  else
    let accounts := ensureAccountRow ledger.accounts trade.account
    (.applied,
      { processed := ledger.processed ++ [eventId]
        accounts := Function.update accounts trade.account
          ((accounts trade.account).map (creditRow trade)) })

/-! ## What it comes to -/

/-- Credit the trade to its account, which is opened if need be. -/
def credit (accounts : PyStr → Option Account) (trade : ParsedTrade) : PyStr → Option Account :=
  Function.update accounts trade.account
    (some (creditRow trade ((accounts trade.account).getD .opened)))

/-- The ledger as a receiver of trades by event id. -/
def Ledger.toOnce (ledger : Ledger) : Once EventId (PyStr → Option Account) :=
  ⟨ledger.processed, ledger.accounts⟩

theorem update_ensureAccountRow (accounts : PyStr → Option Account) (trade : ParsedTrade) :
    Function.update (ensureAccountRow accounts trade.account) trade.account
      ((ensureAccountRow accounts trade.account trade.account).map (creditRow trade)) =
    credit accounts trade := by
  unfold ensureAccountRow credit
  split
  · rename_i row hrow
    simp [hrow]
  · rename_i hrow
    simp [hrow]

/-- **`apply_trade_safe` processes each event id once.** -/
theorem applyTradeSafe_eq_receive (ledger : Ledger) (eventId : EventId) (trade : ParsedTrade) :
    (applyTradeSafe ledger eventId trade).2.toOnce =
      ledger.toOnce.receive credit (eventId, trade) := by
  unfold applyTradeSafe Once.receive
  split_ifs with hmem hmem'
  · rfl
  · exact absurd hmem hmem'
  · exact absurd ‹_› hmem
  · simp only [Ledger.toOnce, update_ensureAccountRow]

/-- The trades are credited account by account. -/
theorem foldl_credit (trades : List ParsedTrade) (accounts : PyStr → Option Account)
    (account : PyStr) : trades.foldl credit accounts account =
      (trades.filter fun trade => trade.account = account).foldl
        (fun row trade => some (creditRow trade (row.getD .opened))) (accounts account) := by
  induction trades generalizing accounts with
  | nil => rfl
  | cons trade trades ih =>
    rw [List.foldl_cons, ih]
    rcases eq_or_ne trade.account account with rfl | h
    · simp [credit]
    · have hother : credit accounts trade account = accounts account :=
        Function.update_of_ne (Ne.symm h) _ _
      simp [h, hother]

end Hookit.Bank
