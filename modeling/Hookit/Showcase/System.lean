import Hookit.Bank.Receiver
import Hookit.Bank.Serial
import Hookit.Engine.Posts

/-!
# The platform and Bank B

The delivery engine and the safe bank's database, joined by HTTP. A POST of the engine to the
bank's URL may arrive any number of times and at any later moment, or never (`arrive`); each
arrival runs a handler of its own. The handler reads the mode and checks the signature, then runs
the statements of `apply_trade_safe` (`bank`), then commits (`finish`) or is rolled back (`fail`);
only then does it have an answer. Its answer may reach the transaction that waits for it
(`respond`) or be lost, and the transaction may give up waiting at any moment.

* Requests that no worker has signed (`forge`) do not verify.
* The mode is switched at any moment (`setMode`).
* The world answers for the bank only with failures (a timeout, a refused connection, a gateway's
  error): a success comes from its handler.
* An event's row does not change, and the bank's endpoint keeps its URL.
-/

namespace Hookit.Showcase

open Foundations

/-- What is fixed in a run: the settings, the events and the bank's endpoint. -/
structure Setup (π : Type) where
  lib : UrlLib
  cfg : Settings
  /-- The row of each event. -/
  events : EventId → Event π
  bankId : EndpointId
  bankUrl : PyStr
  /-- `parse_trade` -/
  parseTrade : π → Except PyError (Option Bank.ParsedTrade)

/-- A request at the bank: the POST that it is, the mode that the handler has read, what it does,
and the status it has answered with. -/
structure Handler where
  post : Option ℕ
  mode : Bank.BankMode
  reception : Bank.Reception
  answered : Option ℕ

structure State (π : Type) where
  engine : Engine.State π
  bank : Bank.State
  mode : Bank.BankMode
  handlers : Bank.Tid → Option Handler

variable {π : Type}

def init : State π where
  engine := Engine.init
  bank := Bank.init
  mode := .healthy
  handlers _ := none

inductive Act (π : Type)
  | engine (a : Engine.Act π)
  | arrive (b : Bank.Tid) (post : ℕ) (verified : Bool)
  | forge (b : Bank.Tid)
  | bank (a : Bank.Act)
  | finish (b : Bank.Tid)
  | fail (b : Bank.Tid)
  | respond (t : Engine.Tid) (b : Bank.Tid) (answer : Answer) (durationMs : ℕ) (now : Time)
      (draw : Draw)
  | setMode (mode : Bank.BankMode)

namespace State

/-- The POST that transaction `t` waits for. -/
def awaited (s : State π) (t : Engine.Tid) : Option ℕ :=
  match s.engine.txs t with
  | .running ⟨.posting _ _ post, _, _, _⟩ => some post
  | _ => none

/-- Transaction `t` waits for an answer from the bank's URL. -/
def awaitsBank (s : State π) (url : PyStr) (t : Engine.Tid) : Bool :=
  ((s.awaited t).bind fun post => s.engine.posts[post]?).any fun p => p.request.url = url

def handle (s : State π) (b : Bank.Tid) (handler : Handler) : State π :=
  { s with handlers := Function.update s.handlers b (some handler) }

end State

variable [DecidableEq π] (S : Setup π)

/-- The engine's rows are the setup's, and no success comes from the bank's URL but by
`respond`. -/
def permits (s : State π) : Engine.Act π → Bool
  | .send _ endpoint event _ =>
    event = S.events event.id && (endpoint.id ≠ S.bankId || endpoint.url = S.bankUrl)
  | .answer t answer _ _ _ => !answer.succeeded || !s.awaitsBank S.bankUrl t
  | _ => true

/-- A statement of `apply_trade_safe` in a handler. -/
def stepBank (s : State π) : Bank.Act → Option (State π)
  | .insertProcessed b eventId trade =>
    match s.handlers b with
    | some handler =>
      if handler.reception = .apply eventId trade ∧ handler.answered = none then
        (Bank.step (.insertProcessed b eventId trade) s.bank).map fun bank => { s with bank }
      else none
    | none => none
  -- the end of the transaction is the handler's `finish` or `fail`
  | .commit _ | .abort _ => none
  | a => (Bank.step a s.bank).map fun bank => { s with bank }

def step : Act π → State π → Option (State π)
  | .engine a, s =>
    if permits S s a then (Engine.step S.lib S.cfg a s.engine).map fun engine => { s with engine }
    else none
  | .arrive b post verified, s =>
    match s.handlers b, s.engine.posts[post]? with
    | none, some p =>
      if p.request.url = S.bankUrl then
        some <| s.handle b
          { post := some post
            mode := s.mode
            reception := Bank.bankSafeReceiver S.parseTrade s.mode verified
              (Bank.parseEnvelope p.request)
            answered := none }
      else none
    | _, _ => none
  | .forge b, s =>
    match s.handlers b with
    | none =>
      some <| s.handle b
        { post := none
          mode := s.mode
          reception := Bank.bankSafeReceiver S.parseTrade s.mode false none
          answered := none }
    | some _ => none
  | .bank a, s => stepBank s a
  | .finish b, s =>
    match s.handlers b with
    | some ⟨post, mode, .answer status, none⟩ =>
      some (s.handle b ⟨post, mode, .answer status, some status⟩)
    | some ⟨post, mode, .apply eventId trade, none⟩ =>
      (Bank.step (.commit b) s.bank).map fun bank =>
        { s with bank }.handle b
          ⟨post, mode, .apply eventId trade, some (Bank.responseStatus mode)⟩
    | _ => none
  | .fail b, s =>
    match s.handlers b with
    | some ⟨post, mode, reception, none⟩ =>
      -- the transaction may not have begun
      some <| { s with bank := (Bank.step (.abort b) s.bank).getD s.bank }.handle b
        ⟨post, mode, reception, some 500⟩
    | _ => none
  | .respond t b answer durationMs now draw, s =>
    match s.handlers b with
    | some ⟨some post, _, _, some status⟩ =>
      if s.awaited t = some post ∧ answer.responseStatus = some status then
        (Engine.step S.lib S.cfg (.answer t answer durationMs now draw) s.engine).map fun engine =>
          { s with engine }
      else none
    | _ => none
  | .setMode mode, s => some { s with mode }

/-- The engine with the bank. -/
def system : Machine (State π) (Act π) where
  init := init
  step := step S

/-! ## Moves -/

/-- The outcomes of a step. -/
inductive Move : Act π → State π → State π → Prop
  | engine {s : State π} {a : Engine.Act π} {engine : Engine.State π}
      (hpermits : permits S s a = true) (hmove : Engine.Move S.lib S.cfg a s.engine engine) :
      Move (.engine a) s { s with engine }
  | arrive {s : State π} {b : Bank.Tid} {post : ℕ} {verified : Bool} {p : Engine.Post π}
      (hb : s.handlers b = none) (hp : s.engine.posts[post]? = some p) :
      Move (.arrive b post verified) s (s.handle b
        { post := some post
          mode := s.mode
          reception := Bank.bankSafeReceiver S.parseTrade s.mode verified
            (Bank.parseEnvelope p.request)
          answered := none })
  | forge {s : State π} {b : Bank.Tid} (hb : s.handlers b = none) :
      Move (.forge b) s (s.handle b
        { post := none
          mode := s.mode
          reception := Bank.bankSafeReceiver S.parseTrade s.mode false none
          answered := none })
  | bank {s : State π} {a : Bank.Act} {bank : Bank.State}
      (hinsert : ∀ b e trade, a = .insertProcessed b e trade → ∃ handler,
        s.handlers b = some handler ∧ handler.reception = .apply e trade ∧ handler.answered = none)
      (hcommit : ∀ b, a ≠ .commit b) (hmove : Bank.Move a s.bank bank) :
      Move (.bank a) s { s with bank }
  | decline {s : State π} {b : Bank.Tid} {handler : Handler} {status : ℕ}
      (hb : s.handlers b = some handler) (hreception : handler.reception = .answer status)
      (hanswered : handler.answered = none) :
      Move (.finish b) s (s.handle b { handler with answered := some status })
  | commit {s : State π} {b : Bank.Tid} {handler : Handler} {e : EventId} {trade : Bank.ParsedTrade}
      {bank : Bank.State} (hb : s.handlers b = some handler)
      (hreception : handler.reception = .apply e trade) (hanswered : handler.answered = none)
      (hmove : Bank.Move (.commit b) s.bank bank) :
      Move (.finish b) s ({ s with bank }.handle b
        { handler with answered := some (Bank.responseStatus handler.mode) })
  | fail {s : State π} {b : Bank.Tid} {handler : Handler} {bank : Bank.State}
      (hb : s.handlers b = some handler) (hanswered : handler.answered = none)
      (hbank : bank = s.bank ∨ Bank.Move (.abort b) s.bank bank) :
      Move (.fail b) s ({ s with bank }.handle b { handler with answered := some 500 })
  | respond {s : State π} {t : Engine.Tid} {b : Bank.Tid} {answer : Answer} {durationMs : ℕ}
      {now : Time} {draw : Draw} {handler : Handler} {post status : ℕ} {engine : Engine.State π}
      (hb : s.handlers b = some handler) (hpost : handler.post = some post)
      (hanswered : handler.answered = some status) (hawaited : s.awaited t = some post)
      (hstatus : answer.responseStatus = some status)
      (hmove : Engine.Move S.lib S.cfg (.answer t answer durationMs now draw) s.engine engine) :
      Move (.respond t b answer durationMs now draw) s { s with engine }
  | setMode {s : State π} {mode : Bank.BankMode} : Move (.setMode mode) s { s with mode }

variable {S}

/-- **Every step is a move.** -/
theorem move_of_step {a : Act π} {s s' : State π} (h : step S a s = some s') : Move S a s s' := by
  cases a with
  | engine a =>
    obtain ⟨hpermits, h⟩ := Option.ite_none_right_eq_some.1 h
    obtain ⟨engine, hstep, rfl⟩ := Option.map_eq_some_iff.1 h
    exact .engine hpermits (Engine.move_of_step hstep)
  | arrive b post verified =>
    simp only [step] at h
    split at h
    · obtain ⟨-, ⟨⟩⟩ := Option.ite_none_right_eq_some.1 h
      exact .arrive ‹_› ‹_›
    · cases h
  | forge b =>
    simp only [step] at h
    split at h
    · obtain rfl := Option.some.inj h
      exact .forge ‹_›
    · cases h
  | bank a =>
    have hother : ∀ {a : Bank.Act}, (∀ b e trade, a ≠ .insertProcessed b e trade) →
        (∀ b, a ≠ .commit b) → (Bank.step a s.bank).map (fun bank => { s with bank }) = some s' →
        Move S (.bank a) s s' := by
      intro a hinsert hcommit h
      obtain ⟨bank, hstep, rfl⟩ := Option.map_eq_some_iff.1 h
      exact .bank (fun b e trade heq => absurd heq (hinsert b e trade)) hcommit
        (Bank.move_of_step hstep)
    cases a with
    | insertProcessed b e trade =>
      simp only [step, stepBank] at h
      split at h
      · rename_i handler hb
        obtain ⟨hhandler, h⟩ := Option.ite_none_right_eq_some.1 h
        obtain ⟨bank, hstep, rfl⟩ := Option.map_eq_some_iff.1 h
        refine .bank (fun b' e' trade' heq => ?_) nofun (Bank.move_of_step hstep)
        cases heq
        exact ⟨handler, hb, hhandler⟩
      · cases h
    | commit b => cases h
    | abort b => cases h
    | _ => exact hother nofun nofun h
  | finish b =>
    simp only [step] at h
    split at h
    · obtain rfl := Option.some.inj h
      exact .decline ‹_› rfl rfl
    · obtain ⟨bank, hstep, rfl⟩ := Option.map_eq_some_iff.1 h
      exact .commit ‹_› rfl rfl (Bank.move_of_step hstep)
    · cases h
  | fail b =>
    simp only [step] at h
    split at h
    · obtain rfl := Option.some.inj h
      refine .fail ‹_› rfl ?_
      cases hstep : Bank.step (.abort b) s.bank with
      | none => exact .inl rfl
      | some bank => exact .inr (Bank.move_of_step hstep)
    · cases h
  | respond t b answer durationMs now draw =>
    simp only [step] at h
    split at h
    · obtain ⟨⟨hawaited, hstatus⟩, h⟩ := Option.ite_none_right_eq_some.1 h
      obtain ⟨engine, hstep, rfl⟩ := Option.map_eq_some_iff.1 h
      exact .respond ‹_› rfl rfl hawaited hstatus (Engine.move_of_step hstep)
    · cases h
  | setMode mode =>
    obtain rfl := Option.some.inj h
    exact .setMode

end Hookit.Showcase
