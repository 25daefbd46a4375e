import Hookit.Bank.Safe
import Mathlib.Tactic.Linarith

/-!
# The safe bank converges

Two sequences of the same trades, in any order and with any repetitions, lead a ledger to the same
processed events, balances and timestamps (`converges`), and, where the trades of an account have
distinct timestamps, to the same status.

The balance and the timestamp of a row do not depend on the order in which trades are credited
(`core_creditRow_comm`). The status does, but it is always that of the trade with the timestamp
(`status_of_trades`).
-/

namespace Hookit.Bank

open Foundations

/-- Apply the arrivals one by one. -/
def applyAll (ledger : Ledger) (arrivals : List (EventId × ParsedTrade)) : Ledger :=
  arrivals.foldl (fun ledger arrival => (applyTradeSafe ledger arrival.1 arrival.2).2) ledger

theorem toOnce_applyAll (ledger : Ledger) (arrivals : List (EventId × ParsedTrade)) :
    (applyAll ledger arrivals).toOnce = arrivals.foldl (Once.receive credit) ledger.toOnce := by
  induction arrivals generalizing ledger with
  | nil => rfl
  | cons arrival arrivals ih =>
    rw [List.foldl_cons, ← applyTradeSafe_eq_receive]
    exact ih _

/-- The trades that are credited, in order. -/
def credited (ledger : Ledger) (arrivals : List (EventId × ParsedTrade)) : List ParsedTrade :=
  (Once.firsts ledger.processed arrivals).map Prod.snd

theorem applyAll_processed (ledger : Ledger) (arrivals : List (EventId × ParsedTrade)) :
    (applyAll ledger arrivals).processed =
      ledger.processed ++ (Once.firsts ledger.processed arrivals).map Prod.fst := by
  have h := toOnce_applyAll ledger arrivals
  rw [Once.foldl_receive] at h
  exact congrArg Once.seen h

/-- Credit the trades to one row. -/
def creditAll (row : Option Account) (trades : List ParsedTrade) : Option Account :=
  trades.foldl (fun row trade => some (creditRow trade (row.getD .opened))) row

/-- **Every account is credited its new trades in the order of their first arrivals.** -/
theorem applyAll_accounts (ledger : Ledger) (arrivals : List (EventId × ParsedTrade))
    (account : PyStr) : (applyAll ledger arrivals).accounts account =
      creditAll (ledger.accounts account)
        ((credited ledger arrivals).filter fun trade => trade.account = account) := by
  have h := toOnce_applyAll ledger arrivals
  rw [Once.foldl_receive] at h
  exact (congrFun (congrArg Once.state h) account).trans (foldl_credit _ _ _)

/-! ## Balance and timestamp -/

/-- The later of a timestamp and the one of a trade. -/
def latest (statusAsOf : Option Time) (executedAt : Time) : Option Time :=
  if statusAsOf.all (fun t => t < executedAt) then some executedAt else statusAsOf

theorem latest_comm (statusAsOf : Option Time) (t u : Time) :
    latest (latest statusAsOf t) u = latest (latest statusAsOf u) t := by
  have key : ∀ x y : Time, latest (some x) y = some (max x y) := by
    intro x y
    by_cases h : x < y
    · simp [latest, h, max_eq_right h.le]
    · simp [latest, h, max_eq_left (not_lt.1 h)]
  cases statusAsOf with
  | none =>
    have hnone : ∀ x : Time, latest none x = some x := fun x => by simp [latest]
    rw [hnone, hnone, key, key, max_comm]
  | some s => rw [key, key, key, key, max_right_comm]

/-- The fields of a row that do not depend on the order of crediting. -/
def core (row : Account) : Cents × Option Time := (row.balance, row.statusAsOf)

theorem core_creditRow (trade : ParsedTrade) (row : Account) :
    core (creditRow trade row) =
      ((core row).1 + trade.delta, latest (core row).2 trade.executedAt) := by
  by_cases h : row.statusAsOf.all (fun t => t < trade.executedAt) = true <;>
    simp [core, creditRow, latest, h]

theorem core_creditRow_comm (t u : ParsedTrade) {row row' : Account} (h : core row = core row') :
    core (creditRow t (creditRow u row)) = core (creditRow u (creditRow t row')) := by
  simp only [core_creditRow, h, latest_comm _ t.executedAt u.executedAt, Prod.mk.injEq, and_true]
  exact add_right_comm _ _ _

/-- **Crediting commutes** on balances and timestamps. -/
theorem core_creditAll_perm {trades trades' : List ParsedTrade} (h : trades.Perm trades')
    (row : Option Account) :
    (creditAll row trades).map core = (creditAll row trades').map core := by
  have step : ∀ (trades : List ParsedTrade) {row row' : Option Account},
      row.map core = row'.map core →
      (creditAll row trades).map core = (creditAll row' trades).map core := by
    intro trades
    induction trades with
    | nil => exact id
    | cons trade trades ih =>
      intro row row' hrow
      refine ih (congrArg some ?_)
      have hcore : core (row.getD .opened) = core (row'.getD .opened) := by
        cases row <;> cases row' <;> simp_all
      rw [core_creditRow, core_creditRow, hcore]
  induction h generalizing row with
  | nil => rfl
  | cons trade _ ih => exact ih _
  | swap t u trades => exact step trades (congrArg some (core_creditRow_comm _ _ rfl))
  | trans _ _ ih ih' => exact (ih row).trans (ih' row)

/-! ## Status -/

/-- The timestamp after crediting is not before that of any trade. -/
theorem executedAt_le (row : Option Account) (trades : List ParsedTrade) :
    ∀ trade ∈ trades, ∃ t, (creditAll row trades).bind (·.statusAsOf) = some t ∧
      trade.executedAt ≤ t := by
  induction trades using List.reverseRecOn with
  | nil => nofun
  | append_singleton trades last ih =>
    intro trade hmem
    have hlast : (creditAll row (trades ++ [last])).bind (·.statusAsOf) =
        latest ((creditAll row trades).getD .opened).statusAsOf last.executedAt := by
      rw [creditAll, List.foldl_append]
      exact congrArg Prod.snd (core_creditRow _ _)
    rw [hlast]
    unfold latest
    rcases List.mem_append.1 hmem with hmem | hmem
    · obtain ⟨t, ht, hle⟩ := ih trade hmem
      cases hrow : creditAll row trades with
      | none => rw [hrow] at ht; cases ht
      | some r =>
        rw [hrow] at ht
        have ht' : r.statusAsOf = some t := ht
        simp only [Option.getD_some, ht', Option.all_some, decide_eq_true_eq]
        split_ifs with hlt
        · exact ⟨_, rfl, hle.trans hlt.le⟩
        · exact ⟨t, rfl, hle⟩
    · obtain rfl := List.mem_singleton.1 hmem
      split_ifs with hall
      · exact ⟨_, rfl, le_rfl⟩
      · cases hasOf : ((creditAll row trades).getD .opened).statusAsOf with
        | none => rw [hasOf] at hall; exact absurd rfl hall
        | some t =>
          rw [hasOf] at hall
          exact ⟨t, rfl, not_lt.1 fun hlt => hall (by simpa using hlt)⟩

/-- **Status and timestamp come from one row**: the row before, or the latest of the trades. -/
theorem status_of_trades (row : Option Account) (trades : List ParsedTrade) :
    ((creditAll row trades).bind (·.statusAsOf) = row.bind (·.statusAsOf) ∧
      (creditAll row trades).bind (·.status) = row.bind (·.status)) ∨
    ∃ trade ∈ trades, (creditAll row trades).bind (·.statusAsOf) = some trade.executedAt ∧
      (creditAll row trades).bind (·.status) = some trade.description ∧
      ∀ other ∈ trades, other.executedAt ≤ trade.executedAt := by
  induction trades using List.reverseRecOn with
  | nil => exact .inl ⟨rfl, rfl⟩
  | append_singleton trades last ih =>
    have hstep : creditAll row (trades ++ [last]) =
        some (creditRow last ((creditAll row trades).getD .opened)) := by
      rw [creditAll, List.foldl_append]
      rfl
    have hle := executedAt_le row (trades ++ [last])
    by_cases hall : ((creditAll row trades).getD .opened).statusAsOf.all
        (fun t => t < last.executedAt) = true
    · have hnew : creditRow last ((creditAll row trades).getD .opened) =
          { balance := ((creditAll row trades).getD .opened).balance + last.delta
            status := some last.description
            statusAsOf := some last.executedAt } := by
        simp only [creditRow, hall, if_true]
      rw [hstep, hnew] at hle ⊢
      refine .inr ⟨last, by simp, rfl, rfl, fun other hother => ?_⟩
      obtain ⟨t, ht, hle⟩ := hle other hother
      exact (Option.some.inj ht) ▸ hle
    · have hold : (some (creditRow last ((creditAll row trades).getD .opened))).bind
            (·.statusAsOf) = (creditAll row trades).bind (·.statusAsOf) ∧
          (some (creditRow last ((creditAll row trades).getD .opened))).bind (·.status) =
            (creditAll row trades).bind (·.status) := by
        simp only [creditRow, hall, Option.bind_some]
        cases hrow : creditAll row trades with
        | none => simp [Account.opened]
        | some r => simp
      rw [hstep, hold.1, hold.2]
      rw [hstep, hold.1] at hle
      rcases ih with hsame | ⟨trade, htrade, hasOf, hstatus, -⟩
      · exact .inl hsame
      · refine .inr ⟨trade, List.mem_append_left _ htrade, hasOf, hstatus, fun other hother => ?_⟩
        obtain ⟨t, ht, hle⟩ := hle other hother
        rw [hasOf] at ht
        exact (Option.some.inj ht) ▸ hle

/-- **The order of trades with distinct timestamps does not decide the status.** -/
theorem status_creditAll_perm {trades trades' : List ParsedTrade} (h : trades.Perm trades')
    (row : Option Account)
    (hinj : ∀ trade ∈ trades, ∀ other ∈ trades, trade.executedAt = other.executedAt →
      trade = other)
    (hfresh : ∀ trade ∈ trades, row.bind (·.statusAsOf) ≠ some trade.executedAt) :
    (creditAll row trades).bind (·.status) = (creditAll row trades').bind (·.status) := by
  have hasOf : (creditAll row trades).bind (·.statusAsOf) =
      (creditAll row trades').bind (·.statusAsOf) := by
    have hcore := congrArg (fun x => x.bind Prod.snd) (core_creditAll_perm h row)
    simp only [Option.bind_map] at hcore
    exact hcore
  rcases status_of_trades row trades with ⟨h₁, h₂⟩ | ⟨trade, htrade, h₁, h₂, -⟩ <;>
    rcases status_of_trades row trades' with ⟨h₁', h₂'⟩ | ⟨trade', htrade', h₁', h₂', -⟩ <;>
    rw [h₁, h₁'] at hasOf
  · rw [h₂, h₂']
  · exact absurd hasOf (hfresh trade' (h.mem_iff.2 htrade'))
  · exact absurd hasOf.symm (hfresh trade htrade)
  · rw [h₂, h₂', hinj trade htrade trade' (h.mem_iff.2 htrade') (Option.some.inj hasOf)]

/-! ## Convergence -/

theorem mem_credited {ledger : Ledger} {arrivals : List (EventId × ParsedTrade)}
    {account : PyStr} {trade : ParsedTrade}
    (h : trade ∈ (credited ledger arrivals).filter fun trade => trade.account = account) :
    ∃ arrival ∈ arrivals, arrival.2 = trade ∧ trade.account = account := by
  obtain ⟨hmem, haccount⟩ := List.mem_filter.1 h
  obtain ⟨arrival, harrival, rfl⟩ := List.mem_map.1 hmem
  exact ⟨arrival, (Once.mem_of_mem_firsts harrival).1, rfl, of_decide_eq_true haccount⟩

/-- **The safe bank converges.** Of two sequences of the same arrivals, in which an event id always
carries the same trade and which a ledger has not processed, both lead to the same processed
events and, for each account, to the same balance and timestamp. If the trades of an account have
distinct timestamps, other than the one of its row, then the status is the same as well, and where
the timestamp has advanced it is that of the latest trade. -/
theorem converges {ledger : Ledger} {arrivals arrivals' : List (EventId × ParsedTrade)}
    (hset : ∀ m, m ∈ arrivals ↔ m ∈ arrivals')
    (hfun : ∀ m ∈ arrivals, ∀ m' ∈ arrivals, m.1 = m'.1 → m = m')
    (hnew : ∀ m ∈ arrivals, m.1 ∉ ledger.processed) :
    (∀ e, e ∈ (applyAll ledger arrivals).processed ↔
      e ∈ ledger.processed ∨ ∃ trade, (e, trade) ∈ arrivals) ∧
    (∀ e, e ∈ (applyAll ledger arrivals).processed ↔
      e ∈ (applyAll ledger arrivals').processed) ∧
    ∀ account, ((applyAll ledger arrivals).accounts account).map core =
        ((applyAll ledger arrivals').accounts account).map core ∧
      ((∀ m ∈ arrivals, ∀ m' ∈ arrivals, m.2.account = account → m'.2.account = account →
          m.2.executedAt = m'.2.executedAt → m.2 = m'.2) →
        (∀ m ∈ arrivals, m.2.account = account →
          (ledger.accounts account).bind (·.statusAsOf) ≠ some m.2.executedAt) →
        ((applyAll ledger arrivals).accounts account).bind (·.status) =
          ((applyAll ledger arrivals').accounts account).bind (·.status) ∧
        (((applyAll ledger arrivals).accounts account).bind (·.statusAsOf) ≠
            (ledger.accounts account).bind (·.statusAsOf) →
          ∃ m ∈ arrivals, m.2.account = account ∧
            ((applyAll ledger arrivals).accounts account).bind (·.statusAsOf) =
              some m.2.executedAt ∧
            ((applyAll ledger arrivals).accounts account).bind (·.status) =
              some m.2.description ∧
            ∀ m' ∈ arrivals, m'.2.account = account → m'.2.executedAt ≤ m.2.executedAt)) := by
  have hperm := Once.firsts_perm hset hfun ledger.processed
  refine ⟨fun e => ?_, fun e => ?_, fun account => ?_⟩
  · rw [applyAll_processed, List.mem_append, List.mem_map]
    refine or_congr_right ⟨?_, ?_⟩
    · rintro ⟨m, hm, rfl⟩
      exact ⟨m.2, (Once.mem_of_mem_firsts hm).1⟩
    · rintro ⟨trade, htrade⟩
      exact ⟨(e, trade), (Once.mem_firsts hfun).2 ⟨htrade, hnew _ htrade⟩, rfl⟩
  · rw [applyAll_processed, applyAll_processed, List.mem_append, List.mem_append,
      (hperm.map Prod.fst).mem_iff]
  · have hfilter : ((credited ledger arrivals).filter fun trade => trade.account = account).Perm
        ((credited ledger arrivals').filter fun trade => trade.account = account) :=
      (hperm.map Prod.snd).filter _
    rw [applyAll_accounts, applyAll_accounts]
    set row := ledger.accounts account with hrow
    set trades := (credited ledger arrivals).filter fun trade => trade.account = account
      with htrades
    set trades' := (credited ledger arrivals').filter fun trade => trade.account = account
      with htrades'
    refine ⟨core_creditAll_perm hfilter row, fun hinj hinit => ?_⟩
    have hinj' : ∀ trade ∈ trades, ∀ other ∈ trades, trade.executedAt = other.executedAt →
        trade = other := by
      intro trade htrade other hother
      obtain ⟨m, hm, rfl, hacc⟩ := mem_credited htrade
      obtain ⟨m', hm', rfl, hacc'⟩ := mem_credited hother
      exact hinj m hm m' hm' hacc hacc'
    have hfresh : ∀ trade ∈ trades, row.bind (·.statusAsOf) ≠ some trade.executedAt := by
      intro trade htrade
      obtain ⟨m, hm, rfl, hacc⟩ := mem_credited htrade
      exact hinit m hm hacc
    refine ⟨status_creditAll_perm hfilter row hinj' hfresh, fun hadv => ?_⟩
    rcases status_of_trades row trades with ⟨h₁, -⟩ | ⟨trade, htrade, h₁, h₂, hlatest⟩
    · exact absurd h₁ hadv
    · obtain ⟨m, hm, rfl, hacc⟩ := mem_credited htrade
      refine ⟨m, hm, hacc, h₁, h₂, fun m' hm' hacc' => hlatest m'.2 ?_⟩
      have hfirst := (Once.mem_firsts hfun).2 ⟨hm', hnew m' hm'⟩
      exact List.mem_filter.2 ⟨List.mem_map_of_mem hfirst, decide_eq_true hacc'⟩

end Hookit.Bank
