import Hookit.Ledger.Agreement
import Hookit.Ledger.Log
import Mathlib.Algebra.BigOperators.Ring.Finset
import Mathlib.Algebra.Order.BigOperators.Group.Finset

/-!
# Bank B against the log

Every trade of a log reaches Bank B, in some order, each at least once. `Reconciled` says what
the meter is meant to show then: no drift in any account, the same signed cents on both sides for
every event, and every trade that the bank accepts among its processed ones.

`reconciled_iff`: this holds for every order of arrival exactly when the log is `Reconcilable`:
every event is a plain trade or is none to both sides, and no order of the trades takes a balance
out of its column. The query counts spellings that the bank refuses (`not_reconciled`).
-/

namespace Hookit.Ledger

open Foundations Foundations.PyStr Foundations.PyDecimal Bank

section Definitions

variable (P : Platform) (projectId safeId : Uuid) (db : Database)

/-- The trades of the log. -/
def tradeEvents : List (Uuid × EventRow) :=
  db.events.select fun _ e => e.projectId = projectId && e.type = tradeExecuted

/-- A signed delivery of the event reaches Bank B, which is healthy. -/
def deliverSafe (eventId : Uuid) : Database :=
  match tradeOf? P projectId db eventId with
  | none => db
  | some trade =>
    match applyTradeSafe P db safeId eventId trade with
    | .ok (_, db) => db
    -- the transaction is rolled back
    | .error _ => db

/-- Deliveries of the events, one after the other. -/
def deliverAll (eventIds : List Uuid) : Database :=
  eventIds.foldl (deliverSafe P projectId safeId) db

/-- The log and Bank B agree. -/
structure Reconciled : Prop where
  zero_drift : ∃ expected view, expectedFromEventLog P db projectId = .ok expected ∧
    buildBankView P db safeId expected = .ok view ∧ view.totalDrift = 0 ∧
    ∀ a ∈ view.accounts, a.drift = 0
  alike : ∀ e ∈ tradeEvents projectId db,
    countedSql? P e.2.payload.1 = countedBank? P e.2.payload.1
  credited : ∀ e ∈ tradeEvents projectId db, trade? P e.2.payload.1 ≠ none →
    db.ledgerProcessed.get? (safeId, e.1) = some ()

/-- Bank B has not processed anything yet. -/
structure Fresh : Prop where
  accounts (account : PyStr) : db.ledgerAccounts.get? (safeId, account) = none
  processed (eventId : Uuid) : db.ledgerProcessed.get? (safeId, eventId) = none

/-- The cents that an account's purchases add to it. -/
def deposits (trades : List LoggedTrade) (account : PyStr) : ℚ :=
  ((groupOf trades account).map fun t => max 0 (t.amount * 100)).sum

/-- The cents that an account's sales take from it. -/
def withdrawals (trades : List LoggedTrade) (account : PyStr) : ℚ :=
  ((groupOf trades account).map fun t => max 0 (-(t.amount * 100))).sum

/-- The log is one that both sides read alike, and that fits the columns of Bank B. -/
structure Reconcilable : Prop where
  /-- An event is a plain trade, or is none to either side. -/
  plain : ∀ e ∈ tradeEvents projectId db,
    (∃ account side whole fraction cents written executedAt,
      Plain P e.2.payload.1 account side whole fraction cents written executedAt) ∨
    (loggedTrade? P e.2.payload.1 = none ∧ ∀ account side negative cents executedAt,
      ¬ TradeLike P e.2.payload.1 account side negative cents executedAt)
  /-- With every purchase of an account and none of its sales, the balance fits. -/
  deposits (account : PyStr) :
    startingBalance + deposits (loggedTrades P db projectId) account < 10 ^ 18
  /-- So it does with every sale and no purchase. -/
  withdrawals (account : PyStr) :
    withdrawals (loggedTrades P db projectId) account - startingBalance < 10 ^ 18

/-- What an event adds to an account of the bank. -/
def gain (account : PyStr) (eventId : Uuid) : ℤ :=
  match tradeOf? P projectId db eventId with
  | some trade => if trade.account = account then trade.delta else 0
  | none => 0

/-- The events that Bank B has processed. -/
def processedIds : Finset Uuid :=
  ((db.ledgerProcessed.select fun k _ => k.1 = safeId).map fun e => e.1.2).toFinset

end Definitions

variable {P : Platform} {projectId safeId : Uuid} {db db' db₀ : Database}

theorem mem_processedIds {eventId : Uuid} :
    eventId ∈ processedIds safeId db ↔ db.ledgerProcessed.get? (safeId, eventId) = some () := by
  simp only [processedIds, List.mem_toFinset, List.mem_map, Rows.mem_select, Rows.get?_eq_some_iff]
  constructor
  · rintro ⟨⟨⟨endpointId, e⟩, u⟩, ⟨hmem, hid⟩, rfl⟩
    obtain rfl : endpointId = safeId := of_decide_eq_true hid
    exact hmem
  · intro hmem
    exact ⟨_, ⟨hmem, by simp⟩, rfl⟩

/-! ## The log -/

section Log

theorem nodup_tradeEvents (projectId : Uuid) (db : Database) :
    ((tradeEvents projectId db).map Prod.fst).Nodup :=
  db.events.nodup_select _

theorem tradeOf?_of_mem {e : Uuid × EventRow} (h : e ∈ tradeEvents projectId db) :
    tradeOf? P projectId db e.1 = trade? P e.2.payload.1 := by
  obtain ⟨hmem, hcond⟩ := Rows.mem_select.1 h
  have hget : db.events.get? e.1 = some e.2 := Rows.get?_eq_some_iff.2 hmem
  simp only [Bool.and_eq_true, decide_eq_true_eq] at hcond
  rw [tradeOf?, hget]
  exact if_pos hcond

theorem mem_of_tradeOf? {eventId : Uuid} {trade : ParsedTrade}
    (h : tradeOf? P projectId db eventId = some trade) :
    ∃ row, (eventId, row) ∈ tradeEvents projectId db ∧ trade? P row.payload.1 = some trade := by
  obtain ⟨row, hget, h⟩ := Option.bind_eq_some_iff.1 h
  split at h
  · next hcond =>
    refine ⟨row, Rows.mem_select.2 ⟨Rows.get?_eq_some_iff.1 hget, ?_⟩, h⟩
    simpa using hcond
  · cases h

/-- The account and the status of a trade in the log can be stored. -/
theorem storable_of_tradeOf? {eventId : Uuid} {trade : ParsedTrade}
    (h : tradeOf? P projectId db eventId = some trade) :
    trade.account.storable = true ∧ trade.description.storable = true := by
  obtain ⟨row, -, hrow⟩ := mem_of_tradeOf? h
  obtain ⟨account, side, negative, cents, executedAt, hlike, rfl⟩ := trade?_eq_some_iff.1 hrow
  have hsides : (ofString "buy").storable = true ∧ (ofString "sell").storable = true := by decide
  have hside : side.storable = true := by
    rcases hlike.buy_or_sell with rfl | rfl
    · exact hsides.1
    · exact hsides.2
  exact ⟨Json.storable_of_stored (row.payload.stored_of_get hlike.has_account),
    storable_description row.payload hside negative cents⟩

end Log

/-! ## One delivery -/

section Delivery

theorem creditRow_balance (trade : ParsedTrade) (row : Account) :
    (creditRow trade row).balance = row.balance + trade.delta := by
  unfold creditRow
  dsimp only
  split <;> rfl

theorem creditRow_statusAsOf (trade : ParsedTrade) (row : Account) :
    (creditRow trade row).statusAsOf = some trade.executedAt ∨
      (creditRow trade row).statusAsOf = row.statusAsOf := by
  unfold creditRow
  dsimp only
  split
  · exact .inl rfl
  · exact .inr rfl

theorem processedIds_credited {eventId : Uuid} {trade : ParsedTrade} :
    processedIds safeId (credited db safeId eventId trade) =
      insert eventId (processedIds safeId db) := by
  ext e
  have hget : (credited db safeId eventId trade).ledgerProcessed.get? (safeId, e) =
      (db.ledgerProcessed.insert (safeId, eventId) ()).get? (safeId, e) := rfl
  rw [mem_processedIds, Finset.mem_insert, mem_processedIds, hget, Rows.get?_insert]
  split
  · next heq => simp [(Prod.mk.inj heq).2]
  · next hne =>
    have : e ≠ eventId := fun h => hne (by rw [h])
    simp [this]

theorem get?_credited {eventId : Uuid} {trade : ParsedTrade} (account : PyStr) :
    (credited db safeId eventId trade).ledgerAccounts.get? (safeId, account) =
      if account = trade.account then some (creditRow trade (accountRow db safeId trade.account))
      else db.ledgerAccounts.get? (safeId, account) := by
  have hget : (credited db safeId eventId trade).ledgerAccounts.get? (safeId, account) =
      (db.ledgerAccounts.put (safeId, trade.account)
        (creditRow trade (accountRow db safeId trade.account))).get? (safeId, account) := rfl
  rw [hget, Rows.get?_put]
  by_cases h : account = trade.account
  · rw [if_pos h, if_pos (by rw [h])]
  · rw [if_neg h, if_neg fun heq => h (Prod.mk.inj heq).2]

theorem accountRow_credited {eventId : Uuid} {trade : ParsedTrade} (account : PyStr) :
    accountRow (credited db safeId eventId trade) safeId account =
      if account = trade.account then creditRow trade (accountRow db safeId trade.account)
      else accountRow db safeId account := by
  rw [accountRow, get?_credited]
  split
  · rfl
  · rfl

/-- **What a delivery does**: it credits a trade that is new to the bank, or nothing. -/
theorem deliverSafe_cases (P : Platform) (projectId safeId : Uuid) (db : Database)
    (eventId : Uuid) :
    (deliverSafe P projectId safeId db eventId = db ∧ ∀ trade,
      tradeOf? P projectId db eventId = some trade →
        eventId ∈ processedIds safeId db ∨ ¬ Applicable P db safeId trade) ∨
    ∃ trade, tradeOf? P projectId db eventId = some trade ∧ eventId ∉ processedIds safeId db ∧
      Applicable P db safeId trade ∧
      deliverSafe P projectId safeId db eventId = credited db safeId eventId trade := by
  unfold deliverSafe
  cases htrade : tradeOf? P projectId db eventId with
  | none => exact .inl ⟨rfl, fun trade h => (nomatch h)⟩
  | some trade =>
    dsimp only
    rcases applyTradeSafe_cases P db safeId eventId trade with ⟨hdone, happly⟩ |
      ⟨hnew, happ, happly⟩ | ⟨-, happ, e, happly⟩
    · refine .inl ⟨by rw [happly], fun trade' h => .inl (mem_processedIds.2 hdone)⟩
    · refine .inr ⟨trade, rfl, ?_, happ, by rw [happly]⟩
      rw [mem_processedIds, hnew]
      exact nofun
    · refine .inl ⟨by rw [happly], fun trade' h => .inr ?_⟩
      obtain rfl := Option.some.inj h
      exact happ

end Delivery

/-! ## Any deliveries -/

section Deliveries

/-- Bank B holds what the log gives the events that it has processed. -/
structure Credits (P : Platform) (projectId safeId : Uuid) (db₀ db : Database) : Prop where
  events : db.events = db₀.events
  processed : ∀ e ∈ processedIds safeId db, ∃ trade, tradeOf? P projectId db₀ e = some trade ∧
    db.ledgerAccounts.get? (safeId, trade.account) ≠ none
  indexable : ∀ account, db.ledgerAccounts.get? (safeId, account) ≠ none →
    P.indexable account = true
  balance (account : PyStr) : (accountRow db safeId account).balance =
    startingBalance + ∑ e ∈ processedIds safeId db, gain P projectId db₀ account e
  storable (account : PyStr) : storableAccount (accountRow db safeId account) = true
  times : ∀ account t, (accountRow db safeId account).statusAsOf = some t →
    ∃ e trade, tradeOf? P projectId db₀ e = some trade ∧ trade.executedAt = t

theorem Fresh.processedIds_eq (h : Fresh safeId db) : processedIds safeId db = ∅ := by
  rw [Finset.eq_empty_iff_forall_notMem]
  intro e he
  rw [mem_processedIds, h.processed] at he
  cases he

theorem Fresh.accountRow_eq (h : Fresh safeId db) (account : PyStr) :
    accountRow db safeId account = .opened := by
  rw [accountRow, h.accounts]
  rfl

theorem Fresh.credits (P : Platform) (projectId : Uuid) (h : Fresh safeId db) :
    Credits P projectId safeId db db where
  events := rfl
  processed e he := by
    rw [h.processedIds_eq] at he
    cases he
  indexable account hne := absurd (h.accounts account) hne
  balance account := by
    rw [h.accountRow_eq, h.processedIds_eq, Finset.sum_empty]
    rfl
  storable account := by
    rw [h.accountRow_eq]
    decide
  times account t ht := by
    rw [h.accountRow_eq] at ht
    cases ht

theorem tradeOf?_congr {eventId : Uuid} (h : db.events = db'.events) :
    tradeOf? P projectId db eventId = tradeOf? P projectId db' eventId := by
  rw [tradeOf?, tradeOf?, h]

theorem gain_of_tradeOf? {eventId : Uuid} {trade : ParsedTrade} {account : PyStr}
    (h : tradeOf? P projectId db eventId = some trade) :
    gain P projectId db account eventId = if trade.account = account then trade.delta else 0 := by
  rw [gain, h]

/-- **A trade that is credited** keeps the bank in step with the log. -/
theorem Credits.of_credited {eventId : Uuid} {trade : ParsedTrade}
    (h : Credits P projectId safeId db₀ db) (htrade : tradeOf? P projectId db₀ eventId = some trade)
    (hnew : eventId ∉ processedIds safeId db) (happ : Applicable P db safeId trade) :
    Credits P projectId safeId db₀ (credited db safeId eventId trade) where
  events := h.events
  processed e he := by
    rw [processedIds_credited, Finset.mem_insert] at he
    rcases he with rfl | he
    · exact ⟨trade, htrade, by rw [get?_credited, if_pos rfl]; exact nofun⟩
    · obtain ⟨trade', htrade', hrow⟩ := h.processed e he
      refine ⟨trade', htrade', ?_⟩
      rw [get?_credited]
      split
      · exact nofun
      · exact hrow
  indexable account hne := by
    rw [get?_credited] at hne
    by_cases hget : db.ledgerAccounts.get? (safeId, account) = none
    · split at hne
      · next heq => exact heq ▸ (happ.canOpen (heq ▸ hget)).2
      · exact absurd hget hne
    · exact h.indexable account hget
  balance account := by
    rw [processedIds_credited, Finset.sum_insert hnew, gain_of_tradeOf? htrade, accountRow_credited]
    split
    · next heq =>
      rw [creditRow_balance, ← heq, h.balance, if_pos rfl]
      ring
    · next hne =>
      rw [h.balance, if_neg (Ne.symm hne), zero_add]
  storable account := by
    rw [accountRow_credited]
    split
    · exact happ.storable
    · exact h.storable account
  times account t ht := by
    rw [accountRow_credited] at ht
    split at ht
    · rcases creditRow_statusAsOf trade (accountRow db safeId trade.account) with heq | heq
      · rw [heq] at ht
        exact ⟨eventId, trade, htrade, Option.some.inj ht⟩
      · rw [heq] at ht
        exact h.times trade.account t ht
    · exact h.times account t ht

theorem Credits.of_deliverSafe (h : Credits P projectId safeId db₀ db) (eventId : Uuid) :
    Credits P projectId safeId db₀ (deliverSafe P projectId safeId db eventId) := by
  rcases deliverSafe_cases P projectId safeId db eventId with ⟨heq, -⟩ |
    ⟨trade, htrade, hnew, happ, heq⟩
  · rwa [heq]
  · rw [heq]
    rw [tradeOf?_congr h.events] at htrade
    exact h.of_credited htrade hnew happ

/-- **The bank stays in step with the log** over any deliveries. -/
theorem Credits.of_deliverAll (h : Credits P projectId safeId db₀ db) (eventIds : List Uuid) :
    Credits P projectId safeId db₀ (deliverAll P projectId safeId db eventIds) := by
  induction eventIds generalizing db with
  | nil => exact h
  | cons e eventIds ih => exact ih (h.of_deliverSafe e)

/-- A delivery can add its own event to the processed ones. -/
theorem mem_processedIds_deliverSafe {e eventId : Uuid}
    (h : e ∈ processedIds safeId (deliverSafe P projectId safeId db eventId)) :
    e = eventId ∨ e ∈ processedIds safeId db := by
  rcases deliverSafe_cases P projectId safeId db eventId with ⟨heq, -⟩ | ⟨trade, -, -, -, heq⟩
  · rw [heq] at h
    exact .inr h
  · rw [heq, processedIds_credited, Finset.mem_insert] at h
    exact h

theorem mem_processedIds_deliverAll {e : Uuid} {eventIds : List Uuid}
    (h : e ∈ processedIds safeId (deliverAll P projectId safeId db eventIds)) :
    e ∈ eventIds ∨ e ∈ processedIds safeId db := by
  induction eventIds generalizing db with
  | nil => exact .inr h
  | cons e' eventIds ih =>
    rcases ih h with hmem | hmem
    · exact .inl (List.mem_cons_of_mem _ hmem)
    · rcases mem_processedIds_deliverSafe hmem with rfl | hmem
      · exact .inl List.mem_cons_self
      · exact .inr hmem

theorem processedIds_subset_deliverSafe (eventId : Uuid) :
    processedIds safeId db ⊆ processedIds safeId (deliverSafe P projectId safeId db eventId) := by
  rcases deliverSafe_cases P projectId safeId db eventId with ⟨heq, -⟩ | ⟨trade, -, -, -, heq⟩
  · rw [heq]
  · rw [heq, processedIds_credited]
    exact Finset.subset_insert _ _

end Deliveries

/-! ## Sums over the log -/

section Sums

/-- The ids of the trades of the log. -/
def logIds (projectId : Uuid) (db : Database) : Finset Uuid :=
  ((tradeEvents projectId db).map Prod.fst).toFinset

theorem mem_logIds {e : Uuid} :
    e ∈ logIds projectId db ↔ ∃ row, (e, row) ∈ tradeEvents projectId db := by
  simp [logIds]

/-- What a count adds to an account. -/
def share (account : PyStr) : Option (PyStr × ℚ) → ℚ
  | some (a, x) => if a = account then x else 0
  | none => 0

theorem share_countedBank? {e : Uuid × EventRow} (h : e ∈ tradeEvents projectId db)
    (account : PyStr) :
    share account (countedBank? P e.2.payload.1) = gain P projectId db account e.1 := by
  rw [gain, tradeOf?_of_mem h, countedBank?]
  cases trade? P e.2.payload.1 with
  | none => simp [share]
  | some trade =>
    simp only [share, Option.map_some]
    split <;> simp

/-- A sum over the trades that the query counts in an account, as a sum over all events. -/
theorem sum_groupOf {f : ℚ → ℚ} (hf : f 0 = 0) (account : PyStr) (events : List (Uuid × EventRow)) :
    ((groupOf (events.filterMap fun e => loggedTrade? P e.2.payload.1) account).map
      fun t => f (t.amount * 100)).sum =
    (events.map fun e => f (share account (countedSql? P e.2.payload.1))).sum := by
  induction events with
  | nil => rfl
  | cons e events ih =>
    rw [List.map_cons, List.sum_cons, ← ih, countedSql?]
    cases hlogged : loggedTrade? P e.2.payload.1 with
    | none =>
      rw [List.filterMap_cons, hlogged]
      simp [share, hf]
    | some t =>
      rw [List.filterMap_cons, hlogged, groupOf]
      by_cases haccount : t.account = account
      · rw [List.filter_cons_of_pos (by simpa using haccount)]
        simp [share, haccount, groupOf]
      · rw [List.filter_cons_of_neg (by simpa using haccount)]
        simp [share, haccount, hf, groupOf]

/-- **Where both sides count alike**, a sum over what the query counts is one over the gains. -/
theorem sum_logged (halike : ∀ e ∈ tradeEvents projectId db,
      countedSql? P e.2.payload.1 = countedBank? P e.2.payload.1)
    {f : ℚ → ℚ} {g : ℤ → ℤ} (hfg : ∀ n : ℤ, f n = g n) (hg : g 0 = 0) (account : PyStr) :
    ((groupOf (loggedTrades P db projectId) account).map fun t => f (t.amount * 100)).sum =
      ((∑ e ∈ logIds projectId db, g (gain P projectId db account e) : ℤ) : ℚ) := by
  have hf : f 0 = 0 := by
    have := hfg 0
    rw [hg] at this
    simpa using this
  have hterm : ∀ e ∈ tradeEvents projectId db,
      f (share account (countedSql? P e.2.payload.1)) =
        ((g (gain P projectId db account e.1) : ℤ) : ℚ) := by
    intro e he
    rw [halike e he, share_countedBank? he, hfg]
  calc ((groupOf (loggedTrades P db projectId) account).map fun t => f (t.amount * 100)).sum
      = ((tradeEvents projectId db).map fun e =>
          f (share account (countedSql? P e.2.payload.1))).sum := sum_groupOf hf account _
    _ = ((tradeEvents projectId db).map fun e =>
          ((g (gain P projectId db account e.1) : ℤ) : ℚ)).sum := by
        rw [List.map_congr_left hterm]
    _ = _ := by
        rw [Int.cast_sum, logIds, List.sum_toFinset _ (nodup_tradeEvents projectId db), List.map_map]
        rfl

theorem sumCents_eq (halike : ∀ e ∈ tradeEvents projectId db,
      countedSql? P e.2.payload.1 = countedBank? P e.2.payload.1) (account : PyStr) :
    sumCents (groupOf (loggedTrades P db projectId) account) =
      ∑ e ∈ logIds projectId db, gain P projectId db account e := by
  have hsum := sum_logged halike (f := id) (g := id) (fun _ => rfl) rfl account
  have hgroup : groupSum (groupOf (loggedTrades P db projectId) account) * 100 =
      ((∑ e ∈ logIds projectId db, gain P projectId db account e : ℤ) : ℚ) := by
    rw [groupSum, ← List.sum_map_mul_right]
    exact hsum
  rw [sumCents, hgroup, roundEven_intCast]

theorem deposits_eq (halike : ∀ e ∈ tradeEvents projectId db,
      countedSql? P e.2.payload.1 = countedBank? P e.2.payload.1) (account : PyStr) :
    deposits (loggedTrades P db projectId) account =
      ((∑ e ∈ logIds projectId db, max 0 (gain P projectId db account e) : ℤ) : ℚ) :=
  sum_logged halike (f := fun x => max 0 x) (g := fun n => max 0 n) (by simp) (by simp) account

theorem withdrawals_eq (halike : ∀ e ∈ tradeEvents projectId db,
      countedSql? P e.2.payload.1 = countedBank? P e.2.payload.1) (account : PyStr) :
    withdrawals (loggedTrades P db projectId) account =
      ((∑ e ∈ logIds projectId db, max 0 (-gain P projectId db account e) : ℤ) : ℚ) :=
  sum_logged halike (f := fun x => max 0 (-x)) (g := fun n => max 0 (-n)) (by simp) (by simp) account

end Sums

/-! ## A reconcilable log is reconciled -/

section Reconcilable

/-- The events that the bank has not processed give nothing, once it has processed what it can. -/
theorem Credits.sum_eq (h : Credits P projectId safeId db₀ db) {ids : Finset Uuid}
    (hsubset : processedIds safeId db ⊆ ids)
    (hdone : ∀ e ∈ ids, tradeOf? P projectId db₀ e ≠ none → e ∈ processedIds safeId db)
    (account : PyStr) : (accountRow db safeId account).balance =
      startingBalance + ∑ e ∈ ids, gain P projectId db₀ account e := by
  rw [h.balance, Finset.sum_subset hsubset]
  intro e he hnot
  have hnone : tradeOf? P projectId db₀ e = none := by
    by_contra hne
    exact hnot (hdone e he hne)
  rw [gain, hnone]

theorem Credits.processedIds_subset (h : Credits P projectId safeId db₀ db) :
    processedIds safeId db ⊆ logIds projectId db₀ := by
  intro e he
  obtain ⟨trade, htrade, -⟩ := h.processed e he
  obtain ⟨row, hmem, -⟩ := mem_of_tradeOf? htrade
  exact mem_logIds.2 ⟨row, hmem⟩

/-- **Where every new trade is applicable**, deliveries leave it processed. -/
theorem Credits.mem_processedIds (h : Credits P projectId safeId db₀ db)
    (happ : ∀ db, Credits P projectId safeId db₀ db → ∀ e trade,
      tradeOf? P projectId db₀ e = some trade → e ∉ processedIds safeId db →
        Applicable P db safeId trade)
    {eventIds : List Uuid} {e : Uuid} (he : e ∈ eventIds) (hne : tradeOf? P projectId db₀ e ≠ none) :
    e ∈ processedIds safeId (deliverAll P projectId safeId db eventIds) := by
  have hmono : ∀ (eventIds : List Uuid) (db : Database),
      processedIds safeId db ⊆ processedIds safeId (deliverAll P projectId safeId db eventIds) := by
    intro eventIds
    induction eventIds with
    | nil => exact fun db => Finset.Subset.refl _
    | cons e' eventIds ih => exact fun db => (processedIds_subset_deliverSafe e').trans (ih _)
  induction eventIds generalizing db with
  | nil => cases he
  | cons e' eventIds ih =>
    rcases List.mem_cons.1 he with rfl | he
    · refine hmono eventIds _ ?_
      rcases deliverSafe_cases P projectId safeId db e with ⟨heq, hidle⟩ | ⟨trade, -, -, -, heq⟩
      · obtain ⟨trade, htrade⟩ := Option.ne_none_iff_exists'.1 hne
        have htrade' := htrade
        rw [← tradeOf?_congr h.events] at htrade'
        by_cases hmem : e ∈ processedIds safeId db
        · rwa [heq]
        · exact absurd (happ db h e trade htrade hmem) ((hidle trade htrade').resolve_left hmem)
      · rw [heq, processedIds_credited]
        exact Finset.mem_insert_self _ _
    · exact ih (h.of_deliverSafe e') he

theorem Reconcilable.alike (h : Reconcilable P projectId db) {e : Uuid × EventRow}
    (he : e ∈ tradeEvents projectId db) :
    countedSql? P e.2.payload.1 = countedBank? P e.2.payload.1 := by
  rcases h.plain e he with ⟨account, side, whole, fraction, cents, written, executedAt, hplain⟩ |
    ⟨hlogged, hlike⟩
  · exact hplain.counted
  · have htrade : trade? P e.2.payload.1 = none := by
      rw [Option.eq_none_iff_forall_not_mem]
      intro trade htrade
      obtain ⟨account, side, negative, cents, executedAt, h, -⟩ := trade?_eq_some_iff.1 htrade
      exact hlike account side negative cents executedAt h
    rw [countedSql?, countedBank?, hlogged, htrade]
    rfl

/-- An accepted trade of a reconcilable log fits the columns of the bank. -/
theorem Reconcilable.accepted (h : Reconcilable P projectId db) {eventId : Uuid}
    {trade : ParsedTrade} (htrade : tradeOf? P projectId db eventId = some trade) :
    P.indexable trade.account = true ∧ P.loadable trade.executedAt = true := by
  obtain ⟨row, he, htrade⟩ := mem_of_tradeOf? htrade
  rcases h.plain _ he with ⟨account, side, whole, fraction, cents, written, executedAt, hplain⟩ |
    ⟨-, hlike⟩
  · obtain rfl := Option.some.inj (hplain.trade?.symm.trans htrade)
    exact ⟨hplain.indexable, hplain.loadable⟩
  · obtain ⟨account, side, negative, cents, executedAt, h, -⟩ := trade?_eq_some_iff.1 htrade
    exact absurd h (hlike account side negative cents executedAt)

/-- Whatever part of a reconcilable log is credited, the balance fits. -/
theorem Reconcilable.fits (h : Reconcilable P projectId db) {ids : Finset Uuid}
    (hids : ids ⊆ logIds projectId db) (account : PyStr) :
    FitsBalance (startingBalance + ∑ e ∈ ids, gain P projectId db account e) := by
  have hdeposits := h.deposits account
  have hwithdrawals := h.withdrawals account
  rw [deposits_eq (fun e => h.alike)] at hdeposits
  rw [withdrawals_eq (fun e => h.alike)] at hwithdrawals
  unfold startingBalance at hdeposits hwithdrawals ⊢
  have hdeposits' : (1000000 : ℤ) + ∑ e ∈ logIds projectId db,
      max 0 (gain P projectId db account e) < 10 ^ 18 := by exact_mod_cast hdeposits
  have hwithdrawals' : ∑ e ∈ logIds projectId db, max 0 (-gain P projectId db account e) -
      (1000000 : ℤ) < 10 ^ 18 := by exact_mod_cast hwithdrawals
  have hupper : ∑ e ∈ ids, gain P projectId db account e ≤
      ∑ e ∈ logIds projectId db, max 0 (gain P projectId db account e) :=
    (Finset.sum_le_sum fun e _ => le_max_right 0 _).trans
      (Finset.sum_le_sum_of_subset_of_nonneg hids fun e _ _ => le_max_left 0 _)
  have hlower : ∑ e ∈ ids, -gain P projectId db account e ≤
      ∑ e ∈ logIds projectId db, max 0 (-gain P projectId db account e) :=
    (Finset.sum_le_sum fun e _ => le_max_right 0 _).trans
      (Finset.sum_le_sum_of_subset_of_nonneg hids fun e _ _ => le_max_left 0 _)
  rw [Finset.sum_neg_distrib] at hlower
  generalize ∑ e ∈ ids, gain P projectId db account e = total at hupper hlower ⊢
  unfold FitsBalance
  omega

/-- **Bank B applies every trade** of a reconcilable log. -/
theorem Reconcilable.applicable (h : Reconcilable P projectId db₀)
    (hdb : Credits P projectId safeId db₀ db) {eventId : Uuid} {trade : ParsedTrade}
    (htrade : tradeOf? P projectId db₀ eventId = some trade)
    (hnew : eventId ∉ processedIds safeId db) : Applicable P db safeId trade where
  canOpen _ := ⟨(storable_of_tradeOf? htrade).1, (h.accepted htrade).1⟩
  loadable := by
    cases hat : (accountRow db safeId trade.account).statusAsOf with
    | none => rfl
    | some t =>
      obtain ⟨e, trade', htrade', rfl⟩ := hdb.times _ _ hat
      exact (h.accepted htrade').2
  storable := by
    obtain ⟨row, hmem, -⟩ := mem_of_tradeOf? htrade
    have hids : insert eventId (processedIds safeId db) ⊆ logIds projectId db₀ :=
      Finset.insert_subset (mem_logIds.2 ⟨row, hmem⟩) hdb.processedIds_subset
    have hfits := h.fits hids trade.account
    rw [Finset.sum_insert hnew, gain_of_tradeOf? htrade, if_pos rfl, add_left_comm,
      ← hdb.balance, add_comm, ← creditRow_balance] at hfits
    have hstatus : (accountRow db safeId trade.account).status.all PyStr.storable = true :=
      (of_decide_eq_true (hdb.storable trade.account)).2
    refine decide_eq_true ⟨hfits, ?_⟩
    unfold creditRow
    dsimp only
    split
    · exact (storable_of_tradeOf? htrade).2
    · exact hstatus

theorem tradeEvents_congr (h : db.events = db'.events) :
    tradeEvents projectId db = tradeEvents projectId db' := by
  rw [tradeEvents, tradeEvents, h]

theorem loggedTrades_congr (h : db.events = db'.events) :
    loggedTrades P db projectId = loggedTrades P db' projectId := by
  rw [loggedTrades, loggedTrades, h]

theorem balanceOf_ledgerRows (account : PyStr) :
    balanceOf (ledgerRows db safeId) account = (accountRow db safeId account).balance := by
  rw [balanceOf, findAccount?_ledgerRows, accountRow]
  cases db.ledgerAccounts.get? (safeId, account) <;> rfl

/-- What the query reads of a reconcilable log is plain. -/
theorem Reconcilable.logged (h : Reconcilable P projectId db) {t : LoggedTrade}
    (ht : t ∈ loggedTrades P db projectId) :
    t.castable = true ∧ ∃ written executedAt, t.executedAt = some written ∧
      fromIsoformat P.otherIso written = some (.aware executedAt) := by
  obtain ⟨e, he, hlogged⟩ := List.mem_filterMap.1 ht
  rcases h.plain e he with ⟨account, side, whole, fraction, cents, written, executedAt, hplain⟩ |
    ⟨hnone, -⟩
  · obtain rfl := Option.some.inj (hplain.loggedTrade?.symm.trans hlogged)
    exact ⟨decide_eq_true hplain.numeric, written, executedAt, rfl, hplain.has_time⟩
  · rw [hnone] at hlogged
    cases hlogged

/-- The meter reads a reconcilable log beside Bank B. -/
theorem Reconcilable.summable (h : Reconcilable P projectId db) :
    Summable (loggedTrades P db projectId) where
  castable t ht := (h.logged ht).1
  sum account := by
    have hfits := h.fits (Finset.Subset.refl _) account
    rw [sumCents_eq fun e => h.alike]
    unfold FitsBalance startingBalance at hfits
    unfold precision
    omega

theorem Reconcilable.latest_ne (h : Reconcilable P projectId db) (account : PyStr) (w : Wall) :
    latest P (groupOf (loggedTrades P db projectId) account) ≠ some (.naive w) := by
  intro hlatest
  obtain ⟨raw, hraw, hread⟩ := Option.bind_eq_some_iff.1 hlatest
  obtain ⟨t, ht, htime⟩ := exists_of_latestRaw hraw
  obtain ⟨-, written, executedAt, hwritten, haware⟩ := h.logged (List.mem_of_mem_filter ht)
  obtain rfl := Option.some.inj (hwritten.symm.trans htime)
  split at hread
  · cases hread
  · rw [haware] at hread
    cases hread

/-- **A reconcilable log is reconciled** after any deliveries of all its trades. -/
theorem Reconcilable.reconciled (h : Reconcilable P projectId db) (hfresh : Fresh safeId db)
    {eventIds : List Uuid} (hall : ∀ e ∈ tradeEvents projectId db, e.1 ∈ eventIds) :
    Reconciled P projectId safeId (deliverAll P projectId safeId db eventIds) := by
  have hdb := hfresh.credits P projectId
  have hcredits := hdb.of_deliverAll eventIds
  have hdone : ∀ e ∈ logIds projectId db, tradeOf? P projectId db e ≠ none →
      e ∈ processedIds safeId (deliverAll P projectId safeId db eventIds) := by
    intro e he hne
    obtain ⟨row, hmem⟩ := mem_logIds.1 he
    exact hdb.mem_processedIds (fun _ hdb' _ _ => h.applicable hdb') (hall _ hmem) hne
  generalize deliverAll P projectId safeId db eventIds = db' at hcredits hdone ⊢
  have hevents := hcredits.events
  have hbalance : ∀ account, balanceOf (ledgerRows db' safeId) account =
      contextRound (startingBalance + sumCents (groupOf (loggedTrades P db projectId) account)) := by
    intro account
    have hfits := h.fits (Finset.Subset.refl _) account
    rw [balanceOf_ledgerRows, hcredits.sum_eq hcredits.processedIds_subset hdone,
      sumCents_eq fun e => h.alike, contextRound_eq_self]
    unfold FitsBalance at hfits
    unfold precision
    omega
  have hreadable : Readable P (loggedTrades P db projectId) (ledgerRows db' safeId) := by
    refine ⟨fun e he => ?_, fun account => ?_, fun e _ _ => h.latest_ne e.1⟩
    · have hentry := findAccount?_of_mem (nodup_ledgerRows db' safeId) he
      rw [findAccount?_ledgerRows] at hentry
      cases hat : e.2.statusAsOf with
      | none => rfl
      | some t =>
        have hrow : accountRow db' safeId e.1 = e.2 := by rw [accountRow, hentry, Option.getD_some]
        obtain ⟨e', trade, htrade, rfl⟩ := hcredits.times e.1 t (hrow ▸ hat)
        exact (h.accepted htrade).2
    · rw [hbalance, sub_self]
      decide
  obtain ⟨view, hview⟩ := buildBankView_eq_ok_iff.2 hreadable
  refine ⟨⟨_, view, expectedFromEventLog_eq_ok_iff.2 ⟨?_, rfl⟩, ?_, ?_⟩, ?_, ?_⟩
  · rw [loggedTrades_congr hevents]
    exact h.summable
  · rw [loggedTrades_congr hevents]
    exact hview
  · exact drift_eq_zero_of_buildBankView hview hbalance
  · rw [tradeEvents_congr hevents]
    exact fun e => h.alike
  · rw [tradeEvents_congr hevents]
    intro e he hne
    rw [← mem_processedIds]
    exact hdone e.1 (mem_logIds.2 ⟨e.2, he⟩) (tradeOf?_of_mem he ▸ hne)

end Reconcilable

/-! ## A log that is reconciled in every order is reconcilable -/

section Orders

variable (hfresh : Fresh safeId db)
  (hall : ∀ eventIds, (∀ e ∈ tradeEvents projectId db, e.1 ∈ eventIds) →
    Reconciled P projectId safeId (deliverAll P projectId safeId db eventIds))

/-- The trades of the log that satisfy `p`, in the order of the log. -/
def idsWhere (projectId : Uuid) (db : Database) (p : Uuid → Bool) : List Uuid :=
  ((tradeEvents projectId db).map Prod.fst).filter p

theorem deliverAll_append (eventIds eventIds' : List Uuid) :
    deliverAll P projectId safeId db (eventIds ++ eventIds') =
      deliverAll P projectId safeId (deliverAll P projectId safeId db eventIds) eventIds' :=
  List.foldl_append

/-- First the trades that satisfy `p`, then the others. -/
theorem mem_idsWhere_append (p : Uuid → Bool) {e : Uuid × EventRow}
    (he : e ∈ tradeEvents projectId db) :
    e.1 ∈ idsWhere projectId db p ++ idsWhere projectId db fun e => !p e := by
  have hmem : e.1 ∈ (tradeEvents projectId db).map Prod.fst := List.mem_map_of_mem he
  cases hpe : p e.1 with
  | true => exact List.mem_append_left _ (List.mem_filter.2 ⟨hmem, hpe⟩)
  | false => exact List.mem_append_right _ (List.mem_filter.2 ⟨hmem, by simp [hpe]⟩)

include hfresh hall in
/-- **The trades that come first** are processed before the rest comes. -/
theorem mem_processedIds_idsWhere {p : Uuid → Bool} {e : Uuid} {trade : ParsedTrade}
    (htrade : tradeOf? P projectId db e = some trade) (hp : p e = true) :
    e ∈ processedIds safeId (deliverAll P projectId safeId db (idsWhere projectId db p)) := by
  have hreconciled := hall _ fun e he => mem_idsWhere_append p he
  obtain ⟨row, he, hrow⟩ := mem_of_tradeOf? htrade
  have hcredits := (hfresh.credits P projectId).of_deliverAll
    (idsWhere projectId db p ++ idsWhere projectId db fun e => !p e)
  have hdone := hreconciled.credited (e, row)
    (by rw [tradeEvents_congr hcredits.events]; exact he) (by rw [hrow]; exact nofun)
  rw [← mem_processedIds, deliverAll_append] at hdone
  rcases mem_processedIds_deliverAll hdone with hmem | hmem
  · have := (List.mem_filter.1 hmem).2
    simp [hp] at this
  · exact hmem

include hfresh hall in
/-- Whatever trades come first, the balance fits. -/
theorem fits_idsWhere (p : Uuid → Bool) (account : PyStr) :
    FitsBalance (startingBalance + ∑ e ∈ (logIds projectId db).filter (p ·),
      gain P projectId db account e) := by
  have hcredits := (hfresh.credits P projectId).of_deliverAll
    (idsWhere projectId db p)
  rw [← hcredits.sum_eq]
  · exact (of_decide_eq_true (hcredits.storable account)).1
  · intro e he
    refine Finset.mem_filter.2 ⟨hcredits.processedIds_subset he, ?_⟩
    rcases mem_processedIds_deliverAll he with hmem | hmem
    · exact (List.mem_filter.1 hmem).2
    · rw [hfresh.processedIds_eq] at hmem
      cases hmem
  · intro e he hne
    obtain ⟨trade, htrade⟩ := Option.ne_none_iff_exists'.1 hne
    exact mem_processedIds_idsWhere hfresh hall htrade (Finset.mem_filter.1 he).2

/-- A time that is not read back stays in its row. -/
theorem statusAsOf_deliverAll (projectId : Uuid) {account : PyStr} {t : Time}
    (hload : P.loadable t = false)
    (h : (accountRow db safeId account).statusAsOf = some t) (eventIds : List Uuid) :
    (accountRow (deliverAll P projectId safeId db eventIds) safeId account).statusAsOf = some t := by
  induction eventIds generalizing db with
  | nil => exact h
  | cons e eventIds ih =>
    refine ih ?_
    rcases deliverSafe_cases P projectId safeId db e with ⟨heq, -⟩ | ⟨trade, -, -, happ, heq⟩
    · rwa [heq]
    · rw [heq, accountRow_credited]
      split
      · next haccount =>
        have hloadable := happ.loadable
        rw [← haccount, h, Option.all_some, hload] at hloadable
        cases hloadable
      · exact h

include hfresh hall in
/-- The bank's columns take every trade that it accepts. -/
theorem accepted_of_reconciled {e : Uuid} {trade : ParsedTrade}
    (htrade : tradeOf? P projectId db e = some trade) :
    P.indexable trade.account = true ∧ P.loadable trade.executedAt = true := by
  obtain ⟨row, hmem, -⟩ := mem_of_tradeOf? htrade
  have hids : idsWhere projectId db (· = e) = [e] := by
    have hcount := List.count_eq_one_of_mem (nodup_tradeEvents projectId db)
      (List.mem_map_of_mem (f := Prod.fst) hmem)
    have hfilter := List.filter_eq (l := (tradeEvents projectId db).map Prod.fst) e
    rw [hcount] at hfilter
    simpa [idsWhere, eq_comm] using hfilter
  have hdone := mem_processedIds_idsWhere hfresh hall htrade (p := (· = e)) (by simp)
  have hcredits := (hfresh.credits P projectId).of_deliverAll
    (idsWhere projectId db (· = e))
  obtain ⟨trade', htrade', hrow⟩ := hcredits.processed e hdone
  obtain rfl := Option.some.inj (htrade.symm.trans htrade')
  refine ⟨hcredits.indexable _ hrow, ?_⟩
  by_contra hload
  rw [Bool.not_eq_true] at hload
  have hstatus : (accountRow (deliverAll P projectId safeId db (idsWhere projectId db (· = e)))
      safeId trade.account).statusAsOf = some trade.executedAt := by
    rw [hids] at hdone ⊢
    rcases deliverSafe_cases P projectId safeId db e with ⟨heq, -⟩ | ⟨trade', htrade', -, -, heq⟩
    · rw [deliverAll, List.foldl_cons, heq, List.foldl_nil, hfresh.processedIds_eq] at hdone
      cases hdone
    · obtain rfl := Option.some.inj (htrade.symm.trans htrade')
      rw [deliverAll, List.foldl_cons, heq, List.foldl_nil, accountRow_credited, if_pos rfl,
        hfresh.accountRow_eq]
      rfl
  obtain ⟨expected, view, hexpected, hview, -⟩ :=
    (hall _ fun e' he' => mem_idsWhere_append (· = e) he').zero_drift
  rw [deliverAll_append] at hexpected hview
  have hstays := statusAsOf_deliverAll projectId hload hstatus
    (idsWhere projectId db fun e' => !decide (e' = e))
  generalize deliverAll P projectId safeId (deliverAll P projectId safeId db
    (idsWhere projectId db (· = e))) (idsWhere projectId db fun e' => !decide (e' = e)) = db'
    at hexpected hview hstays
  obtain ⟨-, rfl⟩ := expectedFromEventLog_eq_ok_iff.1 hexpected
  have hreadable := buildBankView_eq_ok_iff.1 ⟨view, hview⟩
  cases hget : db'.ledgerAccounts.get? (safeId, trade.account) with
  | none =>
    rw [accountRow, hget] at hstays
    cases hstays
  | some row' =>
    rw [accountRow, hget, Option.getD_some] at hstays
    have hmem' : (trade.account, row') ∈ ledgerRows db' safeId :=
      List.mem_map.2 ⟨((safeId, trade.account), row'), Rows.mem_select.2
        ⟨Rows.get?_eq_some_iff.1 hget, by simp⟩, rfl⟩
    have := hreadable.loadable _ hmem'
    rw [hstays, Option.all_some, hload] at this
    cases this

include hfresh hall in
/-- **A log that is reconciled in every order** is reconcilable. -/
theorem reconcilable_of_reconciled : Reconcilable P projectId db := by
  have hcredits := (hfresh.credits P projectId).of_deliverAll
    (idsWhere projectId db fun _ => true)
  have hreconciled := hall (idsWhere projectId db fun _ => true) fun e he => by
    simpa [idsWhere] using List.mem_map_of_mem (f := Prod.fst) he
  have halike : ∀ e ∈ tradeEvents projectId db,
      countedSql? P e.2.payload.1 = countedBank? P e.2.payload.1 := by
    have := hreconciled.alike
    rwa [tradeEvents_congr hcredits.events] at this
  obtain ⟨expected, view, hexpected, -⟩ := hreconciled.zero_drift
  have hsummable := (expectedFromEventLog_eq_ok_iff.1 hexpected).1
  rw [loggedTrades_congr hcredits.events] at hsummable
  refine ⟨fun e he => ?_, fun account => ?_, fun account => ?_⟩
  · cases hlogged : loggedTrade? P e.2.payload.1 with
    | none =>
      refine .inr ⟨rfl, fun account side negative cents executedAt hlike => ?_⟩
      have heq := halike e he
      rw [countedSql?, countedBank?, hlogged, trade?_eq_some_iff.2 ⟨_, _, _, _, _, hlike, rfl⟩] at heq
      cases heq
    | some t =>
      left
      cases htrade : trade? P e.2.payload.1 with
      | none =>
        have heq := halike e he
        rw [countedSql?, countedBank?, hlogged, htrade] at heq
        cases heq
      | some trade =>
        have hfits := accepted_of_reconciled hfresh hall ((tradeOf?_of_mem he).trans htrade)
        have hcast := hsummable.castable t (List.mem_filterMap.2 ⟨e, he, hlogged⟩)
        exact plain_of_counted (halike e he) hlogged htrade hcast hfits.1 hfits.2
  · have hfits := fits_idsWhere hfresh hall (fun e => 0 < gain P projectId db account e) account
    have hsum : ∑ e ∈ (logIds projectId db).filter (fun e => decide (0 < gain P projectId db account e)),
        gain P projectId db account e =
        ∑ e ∈ logIds projectId db, max 0 (gain P projectId db account e) := by
      rw [Finset.sum_filter]
      refine Finset.sum_congr rfl fun e _ => ?_
      simp only [decide_eq_true_eq]
      split <;> omega
    rw [hsum] at hfits
    rw [deposits_eq halike]
    generalize ∑ e ∈ logIds projectId db, max 0 (gain P projectId db account e) = total at hfits ⊢
    unfold FitsBalance startingBalance at hfits
    unfold startingBalance
    have hlt : (1000000 : ℤ) + total < 10 ^ 18 := by omega
    exact_mod_cast hlt
  · have hfits := fits_idsWhere hfresh hall (fun e => gain P projectId db account e < 0) account
    have hsum : ∑ e ∈ (logIds projectId db).filter (fun e => decide (gain P projectId db account e < 0)),
        gain P projectId db account e =
        -∑ e ∈ logIds projectId db, max 0 (-gain P projectId db account e) := by
      rw [Finset.sum_filter, ← Finset.sum_neg_distrib]
      refine Finset.sum_congr rfl fun e _ => ?_
      simp only [decide_eq_true_eq]
      split <;> omega
    rw [hsum] at hfits
    rw [withdrawals_eq halike]
    generalize ∑ e ∈ logIds projectId db, max 0 (-gain P projectId db account e) = total at hfits ⊢
    unfold FitsBalance startingBalance at hfits
    unfold startingBalance
    have hlt : total - (1000000 : ℤ) < 10 ^ 18 := by omega
    exact_mod_cast hlt

end Orders

/-- **The log and Bank B agree after every order of deliveries** exactly when the log is
reconcilable. -/
theorem reconciled_iff (P : Platform) (projectId safeId : Uuid) (db : Database)
    (hfresh : Fresh safeId db) :
    (∀ eventIds : List Uuid, (∀ e ∈ tradeEvents projectId db, e.1 ∈ eventIds) →
      Reconciled P projectId safeId (deliverAll P projectId safeId db eventIds)) ↔
      Reconcilable P projectId db :=
  ⟨fun hall => reconcilable_of_reconciled hfresh hall,
    fun h _ hall => h.reconciled hfresh hall⟩

/-! ## Small logs -/

/-- A log of some events, before any delivery. -/
def logOf (payloads : List Json.StoredObject) : Database :=
  Database.empty.withEvents (Rows.empty.insertAll (payloads.mapIdx fun i payload =>
    (.ofNat (4 + i), ⟨.ofNat 1, tradeExecuted, payload, none, .epoch⟩)))

theorem fresh_logOf (payloads : List Json.StoredObject) : Fresh (.ofNat 3) (logOf payloads) :=
  ⟨fun _ => rfl, fun _ => rfl⟩

/-- After her purchase alice sells for two and a half dollars, and Bob buys for one. -/
def sale : Json.StoredObject :=
  ⟨tradePayload "alice" "sell" "2.50" "2024-01-01T00:00:01+00:00",
    tradePayload "alice" "sell" "2.50" "2024-01-01T00:00:01+00:00", rfl⟩

def bobPurchase : Json.StoredObject :=
  ⟨tradePayload "bob" "buy" "1.00" "2024-01-01T00:00:02+00:00",
    tradePayload "bob" "buy" "1.00" "2024-01-01T00:00:02+00:00", rfl⟩

def threeTrades : Database := logOf [purchase, sale, bobPurchase]

theorem plain_sale : Plain .ascii sale.1 (ofString "alice") (ofString "sell") [2] [5, 0] 250
    (ofString "2024-01-01T00:00:01+00:00") (atMidnight 1) :=
  plain_tradePayload (by decide) (by decide +kernel) (.inr rfl) (by decide +kernel)
    (by decide +kernel) (by decide) (by decide) (by decide +kernel) (by decide +kernel)

theorem plain_bobPurchase : Plain .ascii bobPurchase.1 (ofString "bob") (ofString "buy") [1] [0, 0]
    100 (ofString "2024-01-01T00:00:02+00:00") (atMidnight 2) :=
  plain_tradePayload (by decide) (by decide +kernel) (.inl rfl) (by decide +kernel)
    (by decide +kernel) (by decide) (by decide) (by decide +kernel) (by decide +kernel)

theorem payloads_threeTrades : (tradeEvents (.ofNat 1) threeTrades).map
    (fun e => e.2.payload) = [purchase, sale, bobPurchase] := rfl

theorem loggedTrades_threeTrades : loggedTrades .ascii threeTrades (.ofNat 1) =
    [plainLogged (ofString "alice") (ofString "buy") [5] [0, 0]
        (ofString "2024-01-01T00:00:00+00:00"),
      plainLogged (ofString "alice") (ofString "sell") [2] [5, 0]
        (ofString "2024-01-01T00:00:01+00:00"),
      plainLogged (ofString "bob") (ofString "buy") [1] [0, 0]
        (ofString "2024-01-01T00:00:02+00:00")] := by
  have hevents : loggedTrades .ascii threeTrades (.ofNat 1) =
      [purchase, sale, bobPurchase].filterMap fun payload => loggedTrade? .ascii payload.1 := by
    rw [← payloads_threeTrades, List.filterMap_map]
    rfl
  rw [hevents, List.filterMap_cons, plain_purchase.loggedTrade?, List.filterMap_cons,
    plain_sale.loggedTrade?, List.filterMap_cons, plain_bobPurchase.loggedTrade?, List.filterMap_nil]

/-- An account has a part of what is deposited and withdrawn in all. -/
theorem sum_groupOf_le (trades : List LoggedTrade) (account : PyStr) {f : LoggedTrade → ℚ}
    (hf : ∀ t, 0 ≤ f t) : ((groupOf trades account).map f).sum ≤ (trades.map f).sum :=
  (List.filter_sublist.map f).sum_le_sum fun x hx => by
    obtain ⟨t, -, rfl⟩ := List.mem_map.1 hx
    exact hf t

theorem reconcilable_threeTrades : Reconcilable .ascii (.ofNat 1) threeTrades := by
  refine ⟨fun e he => ?_, fun account => ?_, fun account => ?_⟩
  · have hmem : e.2.payload ∈ [purchase, sale, bobPurchase] := by
      rw [← payloads_threeTrades]
      exact List.mem_map_of_mem he
    simp only [List.mem_cons, List.not_mem_nil, or_false] at hmem
    refine .inl ?_
    rcases hmem with h | h | h <;> rw [h]
    · exact ⟨_, _, _, _, _, _, _, plain_purchase⟩
    · exact ⟨_, _, _, _, _, _, _, plain_sale⟩
    · exact ⟨_, _, _, _, _, _, _, plain_bobPurchase⟩
  · have hall : (startingBalance : ℚ) + ((loggedTrades .ascii threeTrades (.ofNat 1)).map
        fun t : LoggedTrade => max (0 : ℚ) (t.amount * 100)).sum < 10 ^ 18 := by
      rw [loggedTrades_threeTrades]
      decide +kernel
    exact lt_of_le_of_lt (add_le_add_right (sum_groupOf_le _ account fun _ => le_max_left _ _) _) hall
  · have hall : ((loggedTrades .ascii threeTrades (.ofNat 1)).map
        fun t : LoggedTrade => max (0 : ℚ) (-(t.amount * 100))).sum - (startingBalance : ℚ) <
          10 ^ 18 := by
      rw [loggedTrades_threeTrades]
      decide +kernel
    exact lt_of_le_of_lt (sub_le_sub_right (sum_groupOf_le _ account fun _ => le_max_left _ _) _) hall

/-- They are delivered out of order, and one of them twice. -/
theorem reconciled_threeTrades : Reconciled .ascii (.ofNat 1) (.ofNat 3)
    (deliverAll .ascii (.ofNat 1) (.ofNat 3) threeTrades
      [.ofNat 6, .ofNat 5, .ofNat 4, .ofNat 5]) := by
  refine (reconciled_iff .ascii (.ofNat 1) (.ofNat 3) threeTrades (fresh_logOf _)).2
    reconcilable_threeTrades _ fun e he => ?_
  have hids : (tradeEvents (.ofNat 1) threeTrades).map Prod.fst = [.ofNat 4, .ofNat 5, .ofNat 6] :=
    rfl
  have hmem := List.mem_map_of_mem (f := Prod.fst) he
  rw [hids] at hmem
  simp only [List.mem_cons, List.not_mem_nil, or_false] at hmem ⊢
  tauto

/-- A side that is neither `buy` nor `sell` is a purchase to the query, and no trade to the bank. -/
def neitherSide : Json.StoredObject := ⟨aliceTrade "hold" "5.00", aliceTrade "hold" "5.00", rfl⟩

theorem not_reconciled : ¬ ∀ (P : Platform) (projectId safeId : Uuid) (db : Database),
    Fresh safeId db → ∀ eventIds : List Uuid, (∀ e ∈ tradeEvents projectId db, e.1 ∈ eventIds) →
      Reconciled P projectId safeId (deliverAll P projectId safeId db eventIds) := by
  intro hall
  have hdrift : (do
      let db := deliverAll .ascii (.ofNat 1) (.ofNat 3) (logOf [neitherSide]) [.ofNat 4]
      let expected ← expectedFromEventLog .ascii db (.ofNat 1)
      let view ← buildBankView .ascii db (.ofNat 3) expected
      return view.totalDrift).toOption = some 500 := by decide +kernel
  obtain ⟨expected, view, hexpected, hview, htotal, -⟩ := (hall .ascii (.ofNat 1) (.ofNat 3)
    (logOf [neitherSide]) (fresh_logOf _) [.ofNat 4] fun e he => by
      have he' : e ∈ [(Uuid.ofNat 4, _)] := he
      rw [List.mem_singleton.1 he']
      exact List.mem_singleton_self _).zero_drift
  dsimp only at hdrift
  rw [hexpected] at hdrift
  simp only [bind, Except.bind] at hdrift
  rw [hview] at hdrift
  simp only [pure, Except.pure, Except.toOption, htotal] at hdrift
  exact absurd (Option.some.inj hdrift) (by decide)

end Hookit.Ledger
