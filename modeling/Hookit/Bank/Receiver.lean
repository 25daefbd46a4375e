import Hookit.Bank.Safe
import Hookit.Worker.Process

/-!
# `app/routers/showcase_ledger.py`: the safe bank's receiver

What `bank_safe_receiver` decides before it touches the ledger (`bankSafeReceiver`), and the status
it answers with afterwards. The body of a delivery is a function of the request, so
`_parse_envelope` is a function of the request as well. `parse_trade` is a parameter: nothing here
depends on which payloads it accepts.
-/

namespace Hookit.Bank

open Foundations

variable {π : Type}

/-- `BankMode`. -/
inductive BankMode
  | healthy
  | flaky
  | down
  deriving DecidableEq, Repr

/-- What `bank_safe_receiver` does with a request. -/
inductive Reception
  /-- It records the request and answers. -/
  | answer (status : ℕ)
  /-- It calls `apply_trade_safe`, records the request and answers. -/
  | apply (eventId : EventId) (trade : ParsedTrade)
  /-- `parse_trade` raises. -/
  | raise
  deriving DecidableEq

/-- What `_parse_envelope` finds of the event id and the payload in the body of a request: both in
the platform's own envelope, neither in a Discord message. -/
def parseEnvelope (request : Request π) : Option (EventId × π) :=
  match request.payloadFormat with
  | .raw => some (request.eventId, request.payload)
  | .discord => none

/-- `bank_safe_receiver` up to the ledger. -/
def bankSafeReceiver (parseTrade : π → Except PyError (Option ParsedTrade)) (mode : BankMode)
    (verified : Bool) (envelope : Option (EventId × π)) : Reception :=
  if mode = .down then .answer 503
  else if !verified then .answer 401
  else
    match envelope with
    | none => .answer 400
    | some (eventId, payload) =>
      match parseTrade payload with
      | .error _ => .raise
      | .ok none => .answer 400
      | .ok (some trade) => .apply eventId trade

/-- The status that `bank_safe_receiver` answers with after `apply_trade_safe`. -/
def responseStatus (mode : BankMode) : ℕ := if mode = .healthy then 200 else 500

/-- **Only a verified trade in the platform's envelope reaches the ledger.** -/
theorem bankSafeReceiver_eq_apply_iff {parseTrade : π → Except PyError (Option ParsedTrade)}
    {mode : BankMode} {verified : Bool} {envelope : Option (EventId × π)} {e : EventId}
    {trade : ParsedTrade} : bankSafeReceiver parseTrade mode verified envelope = .apply e trade ↔
      mode ≠ .down ∧ verified = true ∧ ∃ payload, envelope = some (e, payload) ∧
        parseTrade payload = .ok (some trade) := by
  unfold bankSafeReceiver
  by_cases hmode : mode = .down
  · simp [hmode]
  cases verified with
  | false => simp [hmode]
  | true =>
    cases envelope with
    | none => simp [hmode]
    | some m =>
      obtain ⟨e', payload⟩ := m
      simp only [hmode, if_false, Bool.not_true, Bool.false_eq_true, ne_eq, not_false_eq_true,
        true_and, Option.some.injEq, Prod.mk.injEq]
      cases hparse : parseTrade payload with
      | error err => simp [hparse]
      | ok trade' => cases trade' <;> simp [hparse]

/-- Before the ledger is touched the receiver answers no success. -/
theorem not_is2xx_of_bankSafeReceiver {parseTrade : π → Except PyError (Option ParsedTrade)}
    {mode : BankMode} {verified : Bool} {envelope : Option (EventId × π)} {status : ℕ}
    (h : bankSafeReceiver parseTrade mode verified envelope = .answer status) :
    ¬ Is2xx status := by
  have hstatus : status = 503 ∨ status = 401 ∨ status = 400 := by
    unfold bankSafeReceiver at h
    grind
  unfold Is2xx
  omega

end Hookit.Bank
