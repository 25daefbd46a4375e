import Hookit.Ledger.Banks

/-!
# The two banks without duplicates, overlap or disorder

A sequence of trades, each applied and committed before the next one, at Bank A (`naiveRun`) and at
Bank B (`safeRun`). An application that raises is rolled back.

`indistinguishable`: if no event id is repeated, the balances are the same, and if the times of
every account increase, so are the rows. The times must be ones that psycopg reads back: Bank B
reads the time that it has stored, and Bank A does not (`not_indistinguishable`).
-/

namespace Hookit.Ledger

open Foundations Foundations.PyStr Bank

section Definitions

variable (P : Platform) (endpointId : Uuid) (db : Database)

/-- `apply_trade_naive`, with nothing else in its pause. -/
def applyTradeNaive (trade : ParsedTrade) : Except PyError Database := do
  let (readBalance, db) ← readNaive P db endpointId trade
  writeNaive db endpointId trade readBalance

/-- What is committed: nothing if the application raises. -/
def committed (result : Except PyError Database) : Database := result.toOption.getD db

/-- The trades applied at Bank A. -/
def naiveRun (trades : List (Uuid × ParsedTrade)) : Database :=
  trades.foldl (fun db t => committed db (applyTradeNaive P endpointId db t.2)) db

/-- The trades applied at Bank B. -/
def safeRun (trades : List (Uuid × ParsedTrade)) : Database :=
  trades.foldl
    (fun db t => committed db ((applyTradeSafe P db endpointId t.1 t.2).map Prod.snd)) db

/-- The bank has no rows. -/
structure EmptyLedger : Prop where
  accounts : ∀ account, db.ledgerAccounts.get? (endpointId, account) = none
  processed : ∀ eventId, db.ledgerProcessed.get? (endpointId, eventId) = none

end Definitions

/-- The times of every account increase along the sequence. -/
def Increasing (trades : List (Uuid × ParsedTrade)) : Prop :=
  trades.Pairwise fun s t => s.2.account = t.2.account → s.2.executedAt < t.2.executedAt

/-- The banks hold the same accounts with the same balances, and the same rows if the times
increase. -/
structure Indistinguishable (P : Platform) (bankA bankB : Uuid) (db : Database)
    (trades : List (Uuid × ParsedTrade)) : Prop where
  balances : ∀ account,
    ((naiveRun P bankA db trades).ledgerAccounts.get? (bankA, account)).map Account.balance =
      ((safeRun P bankB db trades).ledgerAccounts.get? (bankB, account)).map Account.balance
  rows : Increasing trades → ∀ account,
    (naiveRun P bankA db trades).ledgerAccounts.get? (bankA, account) =
      (safeRun P bankB db trades).ledgerAccounts.get? (bankB, account)

/-- psycopg reads the time of the trade back, and the column takes its status text. -/
def Keepable (P : Platform) (trade : ParsedTrade) : Prop :=
  P.loadable trade.executedAt = true ∧ trade.description.storable = true

/-! ## One application -/

section Step

variable {P : Platform} {endpointId eventId : Uuid} {db : Database} {trade : ParsedTrade}

/-- The row that Bank A writes. -/
def naiveRow (trade : ParsedTrade) (row : Account) : Account :=
  ⟨row.balance + trade.delta, some trade.description, some trade.executedAt⟩

/-- What must hold for Bank A to apply a trade. -/
structure NaiveApplicable (P : Platform) (db : Database) (endpointId : Uuid) (trade : ParsedTrade) :
    Prop where
  canOpen : CanOpen P db endpointId trade.account
  storable : storableAccount (naiveRow trade (accountRow db endpointId trade.account)) = true

/-- Bank A applies a trade or is left as it was. -/
theorem committed_naive_cases (P : Platform) (endpointId : Uuid) (db : Database)
    (trade : ParsedTrade) :
    (NaiveApplicable P db endpointId trade ∧
      committed db (applyTradeNaive P endpointId db trade) =
        db.withAccounts (db.ledgerAccounts.put (endpointId, trade.account)
          (naiveRow trade (accountRow db endpointId trade.account)))) ∨
    (¬ NaiveApplicable P db endpointId trade ∧
      committed db (applyTradeNaive P endpointId db trade) = db) := by
  have hok : ∀ db', applyTradeNaive P endpointId db trade = .ok db' ↔
      NaiveApplicable P db endpointId trade ∧
      db' = db.withAccounts (db.ledgerAccounts.put (endpointId, trade.account)
        (naiveRow trade (accountRow db endpointId trade.account))) := by
    intro db'
    simp only [applyTradeNaive, bind_eq_ok_iff, Prod.exists, readNaive_eq_ok_iff, writeNaive,
      storeAccount_eq_ok_iff]
    constructor
    · rintro ⟨_, _, ⟨hopen, rfl, rfl⟩, hstore, rfl⟩
      exact ⟨⟨hopen, hstore⟩, congrArg db.withAccounts Rows.modifyAt_insert⟩
    · rintro ⟨⟨hopen, hstore⟩, rfl⟩
      exact ⟨_, _, ⟨hopen, rfl, rfl⟩, hstore, congrArg db.withAccounts Rows.modifyAt_insert.symm⟩
  by_cases happ : NaiveApplicable P db endpointId trade
  · exact .inl ⟨happ, by rw [(hok _).2 ⟨happ, rfl⟩]; rfl⟩
  · refine .inr ⟨happ, ?_⟩
    cases hres : applyTradeNaive P endpointId db trade with
    | error e => rfl
    | ok db' => exact absurd ((hok db').1 hres).1 happ

/-- Bank B applies the trade of a new event or is left as it was. -/
theorem committed_safe_cases (P : Platform) (trade : ParsedTrade)
    (hnew : db.ledgerProcessed.get? (endpointId, eventId) = none) :
    (Applicable P db endpointId trade ∧
      committed db ((applyTradeSafe P db endpointId eventId trade).map Prod.snd) =
        credited db endpointId eventId trade) ∨
    (¬ Applicable P db endpointId trade ∧
      committed db ((applyTradeSafe P db endpointId eventId trade).map Prod.snd) = db) := by
  rcases applyTradeSafe_cases P db endpointId eventId trade with
    ⟨hprocessed, -⟩ | ⟨-, happ, h⟩ | ⟨-, happ, e, h⟩
  · rw [hnew] at hprocessed
    cases hprocessed
  · exact .inl ⟨happ, by rw [h]; rfl⟩
  · exact .inr ⟨happ, by rw [h]; rfl⟩

/-- An application marks no other event as processed. -/
theorem get?_processed_committed {eventId' : Uuid} (hne : eventId' ≠ eventId)
    (hnew : db.ledgerProcessed.get? (endpointId, eventId) = none)
    (hnew' : db.ledgerProcessed.get? (endpointId, eventId') = none) :
    (committed db ((applyTradeSafe P db endpointId eventId trade).map
      Prod.snd)).ledgerProcessed.get? (endpointId, eventId') = none := by
  rcases committed_safe_cases P trade hnew with ⟨-, h⟩ | ⟨-, h⟩
  · rw [h]
    change (db.ledgerProcessed.insert (endpointId, eventId) ()).get? _ = none
    rw [Rows.get?_insert, if_neg (by simpa using hne), hnew']
  · rw [h]
    exact hnew'

/-- A row that is put is the row of its account. -/
theorem get?_of_put {accounts : Rows (Uuid × PyStr) Account} {row : Account}
    (haccounts : db.ledgerAccounts = accounts.put (endpointId, trade.account) row)
    (account : PyStr) :
    db.ledgerAccounts.get? (endpointId, account) =
      if account = trade.account then some row else accounts.get? (endpointId, account) := by
  rw [haccounts, Rows.get?_put]
  by_cases h : account = trade.account
  · rw [if_pos h, if_pos (by rw [h])]
  · rw [if_neg h, if_neg (by simpa using h)]

end Step

/-! ## Side by side -/

section Simulation

variable {P : Platform} {bankA bankB eventId : Uuid} {dbA dbB : Database} {trade : ParsedTrade}

/-- The two banks hold the same balances, and Bank B can work with its rows. -/
structure Alike (P : Platform) (bankA bankB : Uuid) (dbA dbB : Database) : Prop where
  balances : ∀ account, (dbA.ledgerAccounts.get? (bankA, account)).map Account.balance =
    (dbB.ledgerAccounts.get? (bankB, account)).map Account.balance
  loadable : ∀ account, (accountRow dbB bankB account).statusAsOf.all P.loadable = true
  storable : ∀ account, (accountRow dbB bankB account).status.all PyStr.storable = true

namespace Alike

theorem canOpen_iff (h : Alike P bankA bankB dbA dbB) {account : PyStr} :
    CanOpen P dbA bankA account ↔ CanOpen P dbB bankB account := by
  have hnone : dbA.ledgerAccounts.get? (bankA, account) = none ↔
      dbB.ledgerAccounts.get? (bankB, account) = none := by
    rw [← Option.map_eq_none_iff (f := Account.balance), h.balances, Option.map_eq_none_iff]
  unfold CanOpen
  rw [hnone]

theorem balance_eq (h : Alike P bankA bankB dbA dbB) (account : PyStr) :
    (accountRow dbA bankA account).balance = (accountRow dbB bankB account).balance := by
  have hbalance := h.balances account
  unfold accountRow
  cases hA : dbA.ledgerAccounts.get? (bankA, account) <;>
    cases hB : dbB.ledgerAccounts.get? (bankB, account) <;> simp_all

/-- **Both banks apply a trade, or neither does.** -/
theorem applicable_iff (h : Alike P bankA bankB dbA dbB) (hkeep : Keepable P trade) :
    NaiveApplicable P dbA bankA trade ↔ Applicable P dbB bankB trade := by
  have hA : storableAccount (naiveRow trade (accountRow dbA bankA trade.account)) =
      storableAccount (creditRow trade (accountRow dbB bankB trade.account)) := by
    have hstatus := h.storable trade.account
    have hkeep' : (some trade.description).all PyStr.storable = true := hkeep.2
    unfold naiveRow creditRow storableAccount
    rw [h.balance_eq]
    dsimp only
    split
    · rfl
    · simp only [hstatus, hkeep']
  exact ⟨fun ⟨hopen, hstore⟩ => ⟨h.canOpen_iff.1 hopen, h.loadable _, hA ▸ hstore⟩,
    fun ⟨hopen, _, hstore⟩ => ⟨h.canOpen_iff.2 hopen, hA ▸ hstore⟩⟩

theorem creditRow_balance (trade : ParsedTrade) (row : Account) :
    (creditRow trade row).balance = row.balance + trade.delta := by
  unfold creditRow
  dsimp only
  split <;> rfl

/-- **Side by side** the banks stay alike. -/
theorem step (h : Alike P bankA bankB dbA dbB) (hkeep : Keepable P trade)
    (hnew : dbB.ledgerProcessed.get? (bankB, eventId) = none) :
    Alike P bankA bankB (committed dbA (applyTradeNaive P bankA dbA trade))
      (committed dbB ((applyTradeSafe P dbB bankB eventId trade).map Prod.snd)) := by
  rcases committed_naive_cases P bankA dbA trade with ⟨hA, hdbA⟩ | ⟨hA, hdbA⟩
  · rcases committed_safe_cases P trade hnew with ⟨hB, hdbB⟩ | ⟨hB, hdbB⟩
    · have hrowA := @get?_of_put _ (committed dbA (applyTradeNaive P bankA dbA trade)) _ _ _
        (congrArg Database.ledgerAccounts hdbA)
      have hrowB := get?_of_put (congrArg Database.ledgerAccounts hdbB)
      have hall : ∀ (p : Account → Prop), p (creditRow trade (accountRow dbB bankB trade.account)) →
          (∀ account, p (accountRow dbB bankB account)) → ∀ account, p (accountRow (committed dbB
            ((applyTradeSafe P dbB bankB eventId trade).map Prod.snd)) bankB account) := by
        intro p hnewRow hold account
        rw [accountRow, hrowB]
        split
        · exact hnewRow
        · exact hold account
      refine ⟨fun account => ?_, ?_, ?_⟩
      · rw [hrowA, hrowB]
        split
        · rw [Option.map_some, Option.map_some, creditRow_balance, ← h.balance_eq]
          rfl
        · exact h.balances account
      · refine hall (fun row => row.statusAsOf.all P.loadable = true) ?_ h.loadable
        unfold creditRow
        dsimp only
        split
        · exact hkeep.1
        · exact h.loadable trade.account
      · refine hall (fun row => row.status.all PyStr.storable = true) ?_ h.storable
        have := hB.storable
        unfold storableAccount at this
        exact (of_decide_eq_true this).2
    · exact absurd ((h.applicable_iff hkeep).1 hA) hB
  · rcases committed_safe_cases P trade hnew with ⟨hB, hdbB⟩ | ⟨hB, hdbB⟩
    · exact absurd ((h.applicable_iff hkeep).2 hB) hA
    · rw [hdbA, hdbB]
      exact h

end Alike

/-- The two banks hold the same rows. -/
structure Same (P : Platform) (bankA bankB : Uuid) (dbA dbB : Database) : Prop
    extends Alike P bankA bankB dbA dbB where
  rows : ∀ account, dbA.ledgerAccounts.get? (bankA, account) =
    dbB.ledgerAccounts.get? (bankB, account)

/-- The trade is later than the status of its account. -/
def Later (db : Database) (endpointId : Uuid) (trade : ParsedTrade) : Prop :=
  (accountRow db endpointId trade.account).statusAsOf.all
    (fun statusAsOf => statusAsOf < trade.executedAt) = true

/-- For a trade that is later than the status Bank B's guard is open, and the banks stay the same. -/
theorem Same.step (h : Same P bankA bankB dbA dbB) (hkeep : Keepable P trade)
    (hnew : dbB.ledgerProcessed.get? (bankB, eventId) = none) (hlater : Later dbB bankB trade) :
    Same P bankA bankB (committed dbA (applyTradeNaive P bankA dbA trade))
      (committed dbB ((applyTradeSafe P dbB bankB eventId trade).map Prod.snd)) := by
  refine ⟨h.toAlike.step hkeep hnew, fun account => ?_⟩
  have hrow : naiveRow trade (accountRow dbA bankA trade.account) =
      creditRow trade (accountRow dbB bankB trade.account) := by
    have hopen : accountRow dbA bankA trade.account = accountRow dbB bankB trade.account := by
      rw [accountRow, h.rows, accountRow]
    unfold Later at hlater
    unfold creditRow
    dsimp only
    rw [if_pos hlater, hopen]
    rfl
  rcases committed_naive_cases P bankA dbA trade with ⟨hA, hdbA⟩ | ⟨hA, hdbA⟩
  · rcases committed_safe_cases P trade hnew with ⟨hB, hdbB⟩ | ⟨hB, hdbB⟩
    · rw [@get?_of_put _ (committed dbA (applyTradeNaive P bankA dbA trade)) _ _ _
        (congrArg Database.ledgerAccounts hdbA), get?_of_put (congrArg Database.ledgerAccounts hdbB),
        hrow, h.rows]
    · exact absurd ((h.applicable_iff hkeep).1 hA) hB
  · rcases committed_safe_cases P trade hnew with ⟨hB, hdbB⟩ | ⟨hB, hdbB⟩
    · exact absurd ((h.applicable_iff hkeep).2 hB) hA
    · rw [hdbA, hdbB]
      exact h.rows account

/-- What is later than the trade and than the status is later than the new status. -/
theorem Later.step {later : ParsedTrade} (h : Later dbB bankB later)
    (hlater : trade.account = later.account → trade.executedAt < later.executedAt)
    (hnew : dbB.ledgerProcessed.get? (bankB, eventId) = none) :
    Later (committed dbB ((applyTradeSafe P dbB bankB eventId trade).map Prod.snd)) bankB later := by
  rcases committed_safe_cases P trade hnew with ⟨-, hdb⟩ | ⟨-, hdb⟩
  · unfold Later accountRow
    rw [get?_of_put (congrArg Database.ledgerAccounts hdb)]
    split
    · next haccount =>
      have hold : (accountRow dbB bankB trade.account).statusAsOf.all
          (fun statusAsOf => statusAsOf < later.executedAt) = true := haccount ▸ h
      unfold creditRow
      dsimp only [Option.getD_some]
      split
      · exact decide_eq_true (hlater haccount.symm)
      · exact hold
    · exact h
  · rw [hdb]
    exact h

end Simulation

/-! ## Runs -/

section Runs

variable {P : Platform} {bankA bankB : Uuid}

theorem alike_run {trades : List (Uuid × ParsedTrade)} : ∀ {dbA dbB : Database},
    Alike P bankA bankB dbA dbB → (∀ t ∈ trades, Keepable P t.2) →
    (∀ t ∈ trades, dbB.ledgerProcessed.get? (bankB, t.1) = none) → (trades.map Prod.fst).Nodup →
    Alike P bankA bankB (naiveRun P bankA dbA trades) (safeRun P bankB dbB trades) := by
  induction trades with
  | nil => exact fun h _ _ _ => h
  | cons t trades ih =>
    intro dbA dbB h hkeep hnew hnodup
    rw [List.map_cons, List.nodup_cons] at hnodup
    rw [List.forall_mem_cons] at hkeep hnew
    refine ih (h.step hkeep.1 hnew.1) hkeep.2 (fun u hu => ?_) hnodup.2
    refine get?_processed_committed ?_ hnew.1 (hnew.2 u hu)
    rintro heq
    exact hnodup.1 (heq ▸ List.mem_map_of_mem hu)

theorem same_run {trades : List (Uuid × ParsedTrade)} : ∀ {dbA dbB : Database},
    Same P bankA bankB dbA dbB → (∀ t ∈ trades, Keepable P t.2) →
    (∀ t ∈ trades, dbB.ledgerProcessed.get? (bankB, t.1) = none) → (trades.map Prod.fst).Nodup →
    (∀ t ∈ trades, Later dbB bankB t.2) → Increasing trades →
    Same P bankA bankB (naiveRun P bankA dbA trades) (safeRun P bankB dbB trades) := by
  induction trades with
  | nil => exact fun h _ _ _ _ _ => h
  | cons t trades ih =>
    intro dbA dbB h hkeep hnew hnodup hlater hincreasing
    rw [List.map_cons, List.nodup_cons] at hnodup
    rw [List.forall_mem_cons] at hkeep hnew hlater
    obtain ⟨hfirst, hincreasing⟩ := List.pairwise_cons.1 hincreasing
    refine ih (h.step hkeep.1 hnew.1 hlater.1) hkeep.2 (fun u hu => ?_) hnodup.2
      (fun u hu => (hlater.2 u hu).step (hfirst u hu) hnew.1) hincreasing
    refine get?_processed_committed ?_ hnew.1 (hnew.2 u hu)
    rintro heq
    exact hnodup.1 (heq ▸ List.mem_map_of_mem hu)

end Runs

/-- **Without duplicates, overlap or disorder** the banks cannot be told apart, as long as psycopg
reads back the times of the trades. -/
theorem indistinguishable (P : Platform) (bankA bankB : Uuid) (db : Database)
    (trades : List (Uuid × ParsedTrade)) (hA : EmptyLedger bankA db) (hB : EmptyLedger bankB db)
    (hnodup : (trades.map Prod.fst).Nodup) (hkeep : ∀ t ∈ trades, Keepable P t.2) :
    Indistinguishable P bankA bankB db trades := by
  have hopened : ∀ account, accountRow db bankB account = .opened := fun account => by
    rw [accountRow, hB.accounts]
    rfl
  have halike : Alike P bankA bankB db db :=
    ⟨fun account => by rw [hA.accounts, hB.accounts],
      fun account => by rw [hopened]; rfl, fun account => by rw [hopened]; rfl⟩
  have hnew : ∀ t ∈ trades, db.ledgerProcessed.get? (bankB, t.1) = none := fun t _ => hB.processed t.1
  refine ⟨(alike_run halike hkeep hnew hnodup).balances, fun hincreasing => ?_⟩
  refine (same_run ⟨halike, fun account => by rw [hA.accounts, hB.accounts]⟩ hkeep hnew hnodup
    (fun t _ => ?_) hincreasing).rows
  unfold Later
  rw [hopened]
  rfl

/-! ## The end of the year 9999 -/

/-- A purchase of one dollar. -/
def purchaseAt (executedAt : Time) : ParsedTrade :=
  ⟨ofString "alice", 100, executedAt, ofString "buy $1.00"⟩

theorem indistinguishable_two_purchases :
    Indistinguishable .ascii (.ofNat 1) (.ofNat 2) .empty
      [(.ofNat 1, purchaseAt 1700000000), (.ofNat 2, purchaseAt 1700000001)] :=
  indistinguishable .ascii (.ofNat 1) (.ofNat 2) .empty
    [(.ofNat 1, purchaseAt 1700000000), (.ofNat 2, purchaseAt 1700000001)]
    ⟨fun _ => rfl, fun _ => rfl⟩ ⟨fun _ => rfl, fun _ => rfl⟩ (by decide) (by unfold Keepable; decide)

/-- `9999-12-31T23:59:59-12:00` is in the year 10000, and the next trade of the account is refused by
Bank B only. -/
theorem not_indistinguishable : ¬ ∀ (P : Platform) (bankA bankB : Uuid) (db : Database)
    (trades : List (Uuid × ParsedTrade)), EmptyLedger bankA db → EmptyLedger bankB db →
    (trades.map Prod.fst).Nodup → Indistinguishable P bankA bankB db trades := by
  intro hall
  have h := (hall .ascii (.ofNat 1) (.ofNat 2) .empty
    [(.ofNat 1, purchaseAt 253402343999), (.ofNat 2, purchaseAt 253402344000)]
    ⟨fun _ => rfl, fun _ => rfl⟩ ⟨fun _ => rfl, fun _ => rfl⟩ (by decide)).balances (ofString "alice")
  revert h
  decide +kernel

end Hookit.Ledger
