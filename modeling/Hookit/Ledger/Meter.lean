import Hookit.Ledger.Banks
import Mathlib.Data.List.Dedup
import Mathlib.Order.Lex

/-!
# `app/services/showcase_ledger.py`: the reconciliation meter

`expectedFromEventLog` aggregates the logged trades of a project by account; `buildBankView` sets
one bank's rows against the result. `meter` is what `GET /showcase/ledger` reads: the expected
accounts and the views of both banks.

`meter_eq_ok_iff`: the meter returns exactly when the log and the rows are `Readable`.
-/

namespace Hookit.Ledger

open Foundations Foundations.PyStr Foundations.PyDecimal Bank

/-- `dict.get`. -/
def findAccount? {β : Type} (l : List (PyStr × β)) (account : PyStr) : Option β :=
  (l.find? fun e => e.1 = account).map Prod.snd

section Expected

variable (P : Platform)

/-- `ExpectedAccount`. -/
structure ExpectedAccount where
  delta : Cents
  trades : ℕ
  latestExecutedAt : Option Datetime

/-- The rows that the query aggregates. -/
def loggedTrades (db : Database) (projectId : Uuid) : List LoggedTrade :=
  (db.events.select fun _ e => e.projectId = projectId && e.type = tradeExecuted).filterMap
    fun e => loggedTrade? P e.2.payload.1

/-- The rows of one account. -/
def groupOf (trades : List LoggedTrade) (account : PyStr) : List LoggedTrade :=
  trades.filter fun t => t.account = account

/-- `SUM(…)`. -/
def groupSum (group : List LoggedTrade) : ℚ := (group.map LoggedTrade.amount).sum

/-- `MAX(payload->>'executed_at')`. -/
def latestRaw (group : List LoggedTrade) : Option PyStr :=
  match group.filterMap LoggedTrade.executedAt with
  | [] => none
  | text :: rest => some (rest.foldl P.maxText text)

/-- `fromisoformat` on the greatest text, if there is one. -/
def latest (group : List LoggedTrade) : Option Datetime :=
  (latestRaw P group).bind fun raw => if raw = [] then none else fromIsoformat P.otherIso raw

/-- The sum, rounded to cents. -/
def sumCents (group : List LoggedTrade) : Cents := roundEven (groupSum group * 100)

/-- `Decimal(delta).quantize(_CENTS)`, and the other columns. -/
def expectedAccount (group : List LoggedTrade) : Except PyError ExpectedAccount :=
  if (sumCents group).natAbs < 10 ^ precision then
    .ok ⟨sumCents group, group.length, latest P group⟩
  else .error .invalidOperation

/-- `expected_from_event_log`. -/
def expectedFromEventLog (db : Database) (projectId : Uuid) :
    Except PyError (List (PyStr × ExpectedAccount)) :=
  let trades := loggedTrades P db projectId
  -- a cast that overflows ends the query
  if trades.all LoggedTrade.castable then
    (trades.map LoggedTrade.account).dedup.mapM fun account =>
      (fun expected => (account, expected)) <$> expectedAccount P (groupOf trades account)
  else .error .dataError

end Expected

section View

variable (P : Platform)

/-- `AccountView`. -/
structure AccountView where
  account : PyStr
  balance : Cents
  expected : Cents
  drift : Cents
  status : Option PyStr
  statusAsOf : Option Time
  statusStale : Bool

/-- `BankView`. -/
structure BankView where
  endpointId : Uuid
  mode : BankMode
  accounts : List AccountView
  totalDrift : Cents
  pendingDeliveries : ℕ
  deadLetteredDeliveries : ℕ

/-- `status_as_of is not None and latest is not None and status_as_of < latest`. -/
def statusStale : Option Time → Option Datetime → Except PyError Bool
  | some statusAsOf, some (.aware latest) => .ok (statusAsOf < time latest)
  -- a datetime with an offset does not compare with one without
  | some _, some (.naive _) => .error .typeError
  | _, _ => .ok false

/-- `STARTING_BALANCE + exp.delta`. -/
def expectedBalance (expected : Option ExpectedAccount) : Cents :=
  contextRound (startingBalance + (expected.map ExpectedAccount.delta).getD 0)

/-- `(balance - expected_balance).quantize(_CENTS)`. -/
def drift (balance expected : Cents) : Except PyError Cents :=
  let difference := contextRound (balance - expected)
  if difference.natAbs < 10 ^ precision then .ok difference else .error .invalidOperation

/-- One account of the view. -/
def accountView (account : PyStr) (row : Option Account) (expected : Option ExpectedAccount) :
    Except PyError AccountView := do
  let balance := (row.map Account.balance).getD startingBalance
  let drift ← drift balance (expectedBalance expected)
  let stale ← statusStale (row.bind Account.statusAsOf) (expected.bind
    ExpectedAccount.latestExecutedAt)
  return { account, balance, drift
           expected := expectedBalance expected
           status := row.bind Account.status
           statusAsOf := row.bind Account.statusAsOf
           statusStale := stale }

/-- The rows of one bank. -/
def ledgerRows (db : Database) (endpointId : Uuid) : List (PyStr × Account) :=
  (db.ledgerAccounts.select fun k _ => k.1 = endpointId).map fun e => (e.1.2, e.2)

/-- `_delivery_counts`. -/
def deliveryCounts (db : Database) (endpointId : Uuid) : ℕ × ℕ :=
  let count (status : DeliveryStatus) : ℕ :=
    (db.deliveries.select fun _ r => r.endpointId = endpointId && r.status = status).length
  (count .pending + count .inFlight, count .deadLettered)

/-- `sorted(set(expected) | set(ledger_rows))`. -/
def viewAccounts (expected : List (PyStr × ExpectedAccount)) (rows : List (PyStr × Account)) :
    List PyStr :=
  (expected.map Prod.fst ++ rows.map Prod.fst).dedup.insertionSort (· ≤ ·)

/-- `build_bank_view`. -/
def buildBankView (db : Database) (endpointId : Uuid)
    (expected : List (PyStr × ExpectedAccount)) : Except PyError BankView :=
  let rows := ledgerRows db endpointId
  if rows.all fun e => e.2.statusAsOf.all P.loadable then do
    let accounts ← (viewAccounts expected rows).mapM fun account =>
      accountView account (findAccount? rows account) (findAccount? expected account)
    return { endpointId, accounts
             mode := getBankMode db endpointId
             totalDrift := (accounts.map AccountView.drift).foldl
               (fun total drift => contextRound (total + |drift|)) 0
             pendingDeliveries := (deliveryCounts db endpointId).1
             deadLetteredDeliveries := (deliveryCounts db endpointId).2 }
  else .error .dataError

/-- What `ledger` reads: the expected accounts, Bank A and Bank B. -/
def meter (db : Database) (projectId naiveId safeId : Uuid) :
    Except PyError (List (PyStr × ExpectedAccount) × BankView × BankView) := do
  let expected ← expectedFromEventLog P db projectId
  let naiveView ← buildBankView P db naiveId expected
  let safeView ← buildBankView P db safeId expected
  return (expected, naiveView, safeView)

end View

/-! ## When the meter returns -/

section Returns

variable {P : Platform}

/-- What the query returns for an account. -/
def groupExpected (P : Platform) (group : List LoggedTrade) : ExpectedAccount :=
  ⟨sumCents group, group.length, latest P group⟩

/-- The accounts of the trades, with what the query returns for them. -/
def expectedOf (P : Platform) (trades : List LoggedTrade) : List (PyStr × ExpectedAccount) :=
  (trades.map LoggedTrade.account).dedup.map fun account =>
    (account, groupExpected P (groupOf trades account))

/-- The amounts fit: each of them `numeric`, and each account's sum 28 digits. -/
structure Summable (trades : List LoggedTrade) : Prop where
  castable : ∀ t ∈ trades, t.castable = true
  sum (account : PyStr) : (sumCents (groupOf trades account)).natAbs < 10 ^ precision

theorem sumCents_nil : sumCents [] = 0 := by
  have := roundEven_intCast 0
  simpa [sumCents, groupSum] using this

theorem groupOf_eq_nil {trades : List LoggedTrade} {account : PyStr}
    (h : account ∉ trades.map LoggedTrade.account) : groupOf trades account = [] := by
  refine List.filter_eq_nil_iff.2 fun t ht heq => h (List.mem_map.2 ⟨t, ht, ?_⟩)
  exact of_decide_eq_true heq

/-- **The aggregation** returns exactly when the amounts fit. -/
theorem expectedFromEventLog_eq_ok_iff {db : Database} {projectId : Uuid}
    {expected : List (PyStr × ExpectedAccount)} :
    expectedFromEventLog P db projectId = .ok expected ↔
      Summable (loggedTrades P db projectId) ∧
        expected = expectedOf P (loggedTrades P db projectId) := by
  unfold expectedFromEventLog
  dsimp only
  generalize loggedTrades P db projectId = trades
  have hgroup : ∀ {account : PyStr} {e : PyStr × ExpectedAccount},
      ((fun expected => (account, expected)) <$> expectedAccount P (groupOf trades account)) =
        (.ok e : Except PyError _) ↔
      (sumCents (groupOf trades account)).natAbs < 10 ^ precision ∧
        e = (account, groupExpected P (groupOf trades account)) := by
    intro account e
    simp only [map_eq_ok_iff, expectedAccount]
    split
    · next h => simp [h, groupExpected, eq_comm]
    · next h => simp [h]
  split
  · next hcast =>
    rw [mapM_eq_ok_iff]
    simp only [hgroup]
    rw [List.forall₂_and_left, ← List.forall₂_map_left_iff (f := fun account =>
      (account, groupExpected P (groupOf trades account))) (R := fun a b => b = a)]
    have heq : ∀ {l l' : List (PyStr × ExpectedAccount)}, List.Forall₂ (fun a b => b = a) l l' ↔
        l' = l := by
      intro l l'
      rw [← List.forall₂_eq_eq_eq]
      exact ⟨fun h => h.flip, fun h => h.flip⟩
    rw [heq]
    constructor
    · rintro ⟨hsum, rfl⟩
      refine ⟨⟨List.all_eq_true.1 hcast, fun account => ?_⟩, rfl⟩
      by_cases hmem : account ∈ trades.map LoggedTrade.account
      · exact hsum account (List.mem_dedup.2 hmem)
      · rw [groupOf_eq_nil hmem, sumCents_nil]
        decide
    · rintro ⟨hsummable, rfl⟩
      exact ⟨fun account _ => hsummable.sum account, rfl⟩
  · next hcast =>
    refine iff_of_false (by simp) fun h => hcast (List.all_eq_true.2 h.1.castable)

theorem findAccount?_of_mem {β : Type} {l : List (PyStr × β)} (hnodup : (l.map Prod.fst).Nodup)
    {e : PyStr × β} (h : e ∈ l) : findAccount? l e.1 = some e.2 := by
  obtain ⟨e', he'⟩ : ∃ e', l.find? (fun e' => e'.1 = e.1) = some e' := by
    rw [← Option.isSome_iff_exists, List.find?_isSome]
    exact ⟨e, h, by simp⟩
  have hfst : e'.1 = e.1 := by simpa using List.find?_some he'
  rw [findAccount?, he', List.inj_on_of_nodup_map hnodup (List.mem_of_find?_eq_some he') h hfst]
  rfl

theorem findAccount?_eq_none {β : Type} {l : List (PyStr × β)} {account : PyStr}
    (h : account ∉ l.map Prod.fst) : findAccount? l account = none := by
  rw [findAccount?, List.find?_eq_none.2, Option.map_none]
  intro e he heq
  exact h (List.mem_map.2 ⟨e, he, of_decide_eq_true heq⟩)

theorem findAccount?_expectedOf (trades : List LoggedTrade) (account : PyStr) :
    findAccount? (expectedOf P trades) account =
      if account ∈ trades.map LoggedTrade.account then
        some (groupExpected P (groupOf trades account)) else none := by
  have hfst : (expectedOf P trades).map Prod.fst = (trades.map LoggedTrade.account).dedup := by
    rw [expectedOf, List.map_map]
    exact List.map_id _
  split
  · next h =>
    have hmem : (account, groupExpected P (groupOf trades account)) ∈ expectedOf P trades :=
      List.mem_map.2 ⟨account, List.mem_dedup.2 h, rfl⟩
    exact findAccount?_of_mem (hfst ▸ List.nodup_dedup _) hmem
  · next h =>
    refine findAccount?_eq_none ?_
    rw [hfst, List.mem_dedup]
    exact h

theorem nodup_ledgerRows (db : Database) (endpointId : Uuid) :
    ((ledgerRows db endpointId).map Prod.fst).Nodup := by
  refine List.Nodup.of_map (fun account => (endpointId, account)) ?_
  have heq : ((ledgerRows db endpointId).map Prod.fst).map (fun account => (endpointId, account)) =
      (db.ledgerAccounts.select fun k _ => k.1 = endpointId).map Prod.fst := by
    rw [ledgerRows, List.map_map, List.map_map]
    refine List.map_congr_left fun e he => ?_
    obtain ⟨⟨endpointId', account⟩, row⟩ := e
    obtain rfl : endpointId' = endpointId := of_decide_eq_true (Rows.mem_select.1 he).2
    rfl
  rw [heq]
  exact db.ledgerAccounts.nodup_select _

/-- An account of a bank's rows is found where its row is. -/
theorem findAccount?_ledgerRows (db : Database) (endpointId : Uuid) (account : PyStr) :
    findAccount? (ledgerRows db endpointId) account = db.ledgerAccounts.get? (endpointId, account) := by
  have hmem : ∀ row, (account, row) ∈ ledgerRows db endpointId ↔
      db.ledgerAccounts.get? (endpointId, account) = some row := by
    intro row
    simp only [ledgerRows, List.mem_map, Rows.mem_select, Rows.get?_eq_some_iff, Prod.mk.injEq]
    constructor
    · rintro ⟨⟨⟨endpointId', account'⟩, row'⟩, ⟨he, hid⟩, rfl, rfl⟩
      obtain rfl : endpointId' = endpointId := of_decide_eq_true hid
      exact he
    · intro he
      exact ⟨_, ⟨he, by simp⟩, rfl, rfl⟩
  cases hget : db.ledgerAccounts.get? (endpointId, account) with
  | some row => exact findAccount?_of_mem (nodup_ledgerRows db endpointId) ((hmem row).2 hget)
  | none =>
    refine findAccount?_eq_none fun h => ?_
    obtain ⟨⟨account', row⟩, he, rfl⟩ := List.mem_map.1 h
    rw [(hmem row).1 he] at hget
    cases hget

/-- The greatest of some texts is one of them. -/
theorem foldl_maxText_mem (P : Platform) (rest : List PyStr) (text : PyStr) :
    rest.foldl P.maxText text ∈ text :: rest := by
  induction rest generalizing text with
  | nil => exact List.mem_cons_self
  | cons text' rest ih =>
    rcases List.mem_cons.1 (ih (P.maxText text text')) with heq | hmem
    · rcases P.maxText_eq text text' with hmax | hmax
      · exact List.mem_cons.2 (.inl (heq.trans hmax))
      · exact List.mem_cons_of_mem _ (List.mem_cons.2 (.inl (heq.trans hmax)))
    · exact List.mem_cons_of_mem _ (List.mem_cons_of_mem _ hmem)

/-- The greatest time is one of the times. -/
theorem exists_of_latestRaw {group : List LoggedTrade} {raw : PyStr}
    (h : latestRaw P group = some raw) : ∃ t ∈ group, t.executedAt = some raw := by
  unfold latestRaw at h
  split at h
  · cases h
  · next text rest heq =>
    obtain rfl := Option.some.inj h
    have hmem := foldl_maxText_mem P rest text
    rw [← heq] at hmem
    exact List.mem_filterMap.1 hmem

theorem contextRound_lt_iff (n : ℤ) :
    (contextRound n).natAbs < 10 ^ precision ↔ n.natAbs < 10 ^ precision := by
  constructor
  · intro h
    by_contra hn
    exact absurd (le_natAbs_contextRound (not_lt.1 hn)) (not_le.2 h)
  · intro h
    rwa [contextRound_eq_self h]

/-- The balance of an account in a bank's rows. -/
def balanceOf (rows : List (PyStr × Account)) (account : PyStr) : Cents :=
  ((findAccount? rows account).map Account.balance).getD startingBalance

/-- One bank's rows can be set against the trades. -/
structure Readable (P : Platform) (trades : List LoggedTrade) (rows : List (PyStr × Account)) :
    Prop where
  /-- Stored times are read back. -/
  loadable : ∀ e ∈ rows, e.2.statusAsOf.all P.loadable = true
  /-- A balance is less than 28 digits away from the expected one. -/
  drift (account : PyStr) : (balanceOf rows account -
    contextRound (startingBalance + sumCents (groupOf trades account))).natAbs < 10 ^ precision
  /-- The greatest text of a time, where it has to be compared, has an offset. -/
  ordered : ∀ e ∈ rows, e.2.statusAsOf ≠ none → ∀ w, latest P (groupOf trades e.1) ≠ some (.naive w)

theorem expectedBalance_findAccount? (trades : List LoggedTrade) (account : PyStr) :
    expectedBalance (findAccount? (expectedOf P trades) account) =
      contextRound (startingBalance + sumCents (groupOf trades account)) := by
  rw [findAccount?_expectedOf, expectedBalance]
  split
  · rfl
  · next h =>
    rw [groupOf_eq_nil h, sumCents_nil]
    rfl

theorem statusStale_eq_ok_iff {statusAsOf : Option Time} {latest : Option Datetime} :
    (∃ b, statusStale statusAsOf latest = .ok b) ↔
      (statusAsOf ≠ none → ∀ w, latest ≠ some (.naive w)) := by
  cases statusAsOf with
  | none => simp [statusStale]
  | some s =>
    cases latest with
    | none => simp [statusStale]
    | some l => cases l <;> simp [statusStale]

theorem drift_eq_ok_iff {balance expected : Cents} :
    (∃ d, drift balance expected = .ok d) ↔ (balance - expected).natAbs < 10 ^ precision := by
  rw [← contextRound_lt_iff]
  unfold drift
  dsimp only
  split
  · next h => simp [h]
  · next h => simp [h]

theorem accountView_eq_ok_iff {account : PyStr} {row : Option Account}
    {expected : Option ExpectedAccount} :
    (∃ v, accountView account row expected = .ok v) ↔
      (((row.map Account.balance).getD startingBalance) - expectedBalance expected).natAbs <
        10 ^ precision ∧
      (row.bind Account.statusAsOf ≠ none →
        ∀ w, expected.bind ExpectedAccount.latestExecutedAt ≠ some (.naive w)) := by
  rw [← drift_eq_ok_iff, ← statusStale_eq_ok_iff]
  simp only [accountView, bind_eq_ok_iff, pure_eq_ok_iff]
  constructor
  · rintro ⟨v, d, hd, b, hb, -⟩
    exact ⟨⟨d, hd⟩, ⟨b, hb⟩⟩
  · rintro ⟨⟨d, hd⟩, ⟨b, hb⟩⟩
    exact ⟨_, d, hd, b, hb, rfl⟩

/-- **The view of a bank** returns exactly when its rows are readable. -/
theorem buildBankView_eq_ok_iff {db : Database} {endpointId : Uuid} {trades : List LoggedTrade} :
    (∃ v, buildBankView P db endpointId (expectedOf P trades) = .ok v) ↔
      Readable P trades (ledgerRows db endpointId) := by
  generalize hrows : ledgerRows db endpointId = rows
  have hnodup : (rows.map Prod.fst).Nodup := hrows ▸ nodup_ledgerRows db endpointId
  have hmem : ∀ account, account ∈ viewAccounts (expectedOf P trades) rows ↔
      account ∈ trades.map LoggedTrade.account ∨ account ∈ rows.map Prod.fst := by
    intro account
    have hfst : (expectedOf P trades).map Prod.fst = (trades.map LoggedTrade.account).dedup := by
      rw [expectedOf, List.map_map]
      exact List.map_id _
    rw [viewAccounts, List.mem_insertionSort, List.mem_dedup, List.mem_append, hfst,
      List.mem_dedup]
  have hlatest : ∀ account w, (findAccount? (expectedOf P trades) account).bind
      ExpectedAccount.latestExecutedAt ≠ some (.naive w) ↔
        latest P (groupOf trades account) ≠ some (.naive w) := by
    intro account w
    rw [findAccount?_expectedOf]
    split
    · rfl
    · next h =>
      rw [groupOf_eq_nil h]
      simp [latest, latestRaw]
  have hview : (∃ v, buildBankView P db endpointId (expectedOf P trades) = .ok v) ↔
      (∀ e ∈ rows, e.2.statusAsOf.all P.loadable = true) ∧
        ∀ account ∈ viewAccounts (expectedOf P trades) rows,
          ∃ v, accountView account (findAccount? rows account)
            (findAccount? (expectedOf P trades) account) = .ok v := by
    rw [← exists_mapM_eq_ok_iff]
    unfold buildBankView
    dsimp only
    rw [hrows]
    split
    · next h =>
      simp only [bind_eq_ok_iff, pure_eq_ok_iff]
      constructor
      · rintro ⟨v, accounts, haccounts, -⟩
        exact ⟨List.all_eq_true.1 h, accounts, haccounts⟩
      · rintro ⟨-, accounts, haccounts⟩
        exact ⟨_, accounts, haccounts, rfl⟩
    · next h => exact iff_of_false (by simp) fun hv => h (List.all_eq_true.2 hv.1)
  rw [hview]
  simp only [accountView_eq_ok_iff, expectedBalance_findAccount?, hlatest]
  constructor
  · rintro ⟨hload, haccounts⟩
    refine ⟨hload, fun account => ?_, fun e he hne => ?_⟩
    · by_cases hin : account ∈ viewAccounts (expectedOf P trades) rows
      · exact (haccounts account hin).1
      · rw [hmem, not_or] at hin
        have hstart : contextRound (startingBalance + 0) = startingBalance :=
          contextRound_eq_self (by decide)
        rw [balanceOf, findAccount?_eq_none hin.2, groupOf_eq_nil hin.1, sumCents_nil, hstart]
        decide
    · have := (haccounts e.1 ((hmem _).2 (.inr (List.mem_map_of_mem he)))).2
      rw [findAccount?_of_mem hnodup he] at this
      exact this hne
  · rintro ⟨hload, hdrift, hordered⟩
    refine ⟨hload, fun account _ => ⟨hdrift account, fun hne => ?_⟩⟩
    by_cases hrow : account ∈ rows.map Prod.fst
    · obtain ⟨e, he, rfl⟩ := List.mem_map.1 hrow
      rw [findAccount?_of_mem hnodup he] at hne
      exact hordered e he hne
    · rw [findAccount?_eq_none hrow] at hne
      exact absurd rfl hne

/-- **No drift**: where every balance is the expected one, the view says so. -/
theorem drift_eq_zero_of_buildBankView {db : Database} {endpointId : Uuid}
    {trades : List LoggedTrade} {v : BankView}
    (h : buildBankView P db endpointId (expectedOf P trades) = .ok v)
    (hbalance : ∀ account, balanceOf (ledgerRows db endpointId) account =
      contextRound (startingBalance + sumCents (groupOf trades account))) :
    v.totalDrift = 0 ∧ ∀ a ∈ v.accounts, a.drift = 0 := by
  have hzero : contextRound 0 = 0 := contextRound_eq_self (by decide)
  unfold buildBankView at h
  dsimp only at h
  split at h
  · simp only [bind_eq_ok_iff, pure_eq_ok_iff] at h
    obtain ⟨accounts, haccounts, rfl⟩ := h
    have hdrift : ∀ a ∈ accounts, a.drift = 0 := by
      refine fun a ha => ?_
      obtain ⟨account, -, hview⟩ := exists_of_mem_mapM haccounts ha
      simp only [accountView, bind_eq_ok_iff, pure_eq_ok_iff, expectedBalance_findAccount?] at hview
      obtain ⟨d, hd, b, -, rfl⟩ := hview
      have heq := hbalance account
      unfold balanceOf at heq
      rw [heq, drift, sub_self, hzero, if_pos (by decide)] at hd
      exact (Except.ok.inj hd).symm
    refine ⟨?_, hdrift⟩
    have htotal : ∀ l : List AccountView, (∀ a ∈ l, a.drift = 0) → (l.map AccountView.drift).foldl
        (fun total drift => contextRound (total + |drift|)) 0 = 0 := by
      intro l hl
      induction l with
      | nil => rfl
      | cons a l ih =>
        rw [List.map_cons, List.foldl_cons, hl a (by simp), abs_zero, add_zero, hzero]
        exact ih fun a ha => hl a (by simp [ha])
    exact htotal accounts hdrift
  · cases h

/-- **The meter returns** exactly when the amounts of the logged trades fit and the rows of both
banks are readable. -/
theorem meter_eq_ok_iff {db : Database} {projectId naiveId safeId : Uuid} :
    (∃ v, meter P db projectId naiveId safeId = .ok v) ↔
      Summable (loggedTrades P db projectId) ∧
      Readable P (loggedTrades P db projectId) (ledgerRows db naiveId) ∧
      Readable P (loggedTrades P db projectId) (ledgerRows db safeId) := by
  simp only [meter, bind_eq_ok_iff, pure_eq_ok_iff, ← buildBankView_eq_ok_iff]
  constructor
  · rintro ⟨v, expected, hexpected, a, ha, b, hb, -⟩
    obtain ⟨hsummable, rfl⟩ := expectedFromEventLog_eq_ok_iff.1 hexpected
    exact ⟨hsummable, ⟨a, ha⟩, ⟨b, hb⟩⟩
  · rintro ⟨hsummable, ⟨a, ha⟩, ⟨b, hb⟩⟩
    exact ⟨_, _, expectedFromEventLog_eq_ok_iff.2 ⟨hsummable, rfl⟩, a, ha, b, hb, rfl⟩

end Returns

end Hookit.Ledger
