import Hookit.Bank.Convergence
import Hookit.Ledger.Sequential
import Mathlib.Algebra.Order.BigOperators.Group.List
import Mathlib.Algebra.Order.Group.Int

/-!
# When the order of arrival does not matter

The rows of Bank B as a ledger that processes each event once (`bankOf`): where `apply_trade_safe`
does not raise it is `Bank.applyTradeSafe` (`applyTradeSafe_refines`), so what a sequence of arrivals
leaves is what the fold of the arrivals that were not refused leaves (`exists_done`).

Which arrivals are refused depends on their order. A trade with a time that psycopg does not read
back makes its account's row unreadable; a trade with a text that the column does not take is refused
only while it is the newest. `converges_iff`: two sequences of the same arrivals lead to the same
ledger exactly if there is no such trade beside one that it decides about (`OrderFree`).
-/

namespace Hookit.Ledger

open Foundations Foundations.PyStr Bank

/-! ## The rows as a ledger -/

/-- The rows of a bank. -/
def bankOf (endpointId : Uuid) (db : Database) : Bank.Ledger where
  processed := (db.ledgerProcessed.select fun k _ => k.1 = endpointId).map fun e => e.1.2.val
  accounts account := db.ledgerAccounts.get? (endpointId, account)

/-- An arrival, with the number of its event. -/
def arrival (m : Uuid × ParsedTrade) : EventId × ParsedTrade := (m.1.val, m.2)

section Refinement

variable {P : Platform} {endpointId eventId : Uuid} {db db' : Database} {trade : ParsedTrade}

theorem mem_processed_iff : eventId.val ∈ (bankOf endpointId db).processed ↔
    db.ledgerProcessed.get? (endpointId, eventId) = some () := by
  rw [Rows.get?_eq_some_iff]
  simp only [bankOf, List.mem_map, Rows.mem_select, decide_eq_true_eq]
  constructor
  · rintro ⟨⟨⟨e, i⟩, ⟨⟩⟩, ⟨hmem, rfl⟩, hval⟩
    obtain rfl := Fin.ext hval
    exact hmem
  · exact fun hmem => ⟨_, ⟨hmem, rfl⟩, rfl⟩

theorem bankOf_credited (hnew : db.ledgerProcessed.get? (endpointId, eventId) = none) :
    bankOf endpointId (credited db endpointId eventId trade) =
      ⟨(bankOf endpointId db).processed ++ [eventId.val],
        Bank.credit (bankOf endpointId db).accounts trade⟩ := by
  have hprocessed : ((db.ledgerProcessed.insert (endpointId, eventId) ()).select
      fun k _ => k.1 = endpointId) =
      db.ledgerProcessed.select (fun k _ => k.1 = endpointId) ++ [((endpointId, eventId), ())] := by
    rw [Rows.select, Rows.entries_insert hnew, List.filter_append]
    simp [Rows.select]
  have haccounts : (bankOf endpointId (credited db endpointId eventId trade)).accounts =
      Bank.credit (bankOf endpointId db).accounts trade := by
    funext account
    change (db.ledgerAccounts.put (endpointId, trade.account) _).get? (endpointId, account) = _
    rw [Rows.get?_put, Bank.credit, Function.update_apply]
    by_cases h : account = trade.account
    · rw [if_pos h, if_pos (by rw [h])]
      rfl
    · rw [if_neg h, if_neg (by simpa using h)]
      rfl
  rw [← haccounts]
  simp only [bankOf, credited, Database.withAccounts, Database.withProcessed, hprocessed,
    List.map_append, List.map_singleton]

/-- **Where `apply_trade_safe` does not raise** it processes each event once. -/
theorem applyTradeSafe_refines {outcome : Outcome}
    (h : applyTradeSafe P db endpointId eventId trade = .ok (outcome, db')) :
    Bank.applyTradeSafe (bankOf endpointId db) eventId.val trade =
      (outcome, bankOf endpointId db') := by
  rcases applyTradeSafe_cases P db endpointId eventId trade with
    ⟨hprocessed, hres⟩ | ⟨hnew, -, hres⟩ | ⟨-, -, e, hres⟩ <;> rw [hres] at h
  · obtain ⟨rfl, rfl⟩ := Prod.mk.inj (Except.ok.inj h)
    exact if_pos (mem_processed_iff.2 hprocessed)
  · obtain ⟨rfl, rfl⟩ := Prod.mk.inj (Except.ok.inj h)
    have hnot : eventId.val ∉ (bankOf endpointId db).processed := by
      rw [mem_processed_iff, hnew]
      exact nofun
    rw [bankOf_credited hnew, Bank.applyTradeSafe, if_neg hnot]
    dsimp only
    rw [Bank.update_ensureAccountRow]
  · cases h

end Refinement

/-! ## What the order decides -/

section Definitions

variable (P : Platform) (endpointId : Uuid) (db : Database)

/-- The balances are as good as unbounded: none that some of the trades lead to leaves its column. The
texts in the rows are ones that their columns have taken. -/
structure Ample (arrivals : List (Uuid × ParsedTrade)) : Prop where
  fits : ∀ account (done : List (Uuid × ParsedTrade)), done ⊆ arrivals → (done.map Prod.fst).Nodup →
    FitsBalance ((accountRow db endpointId account).balance +
      ((done.filter fun m => m.2.account = account).map fun m => m.2.delta).sum)
  storable : ∀ account, (accountRow db endpointId account).status.all PyStr.storable = true

/-- The account's row can be read, or the account can be opened. -/
def Usable (account : PyStr) : Prop :=
  CanOpen P db endpointId account ∧
    (accountRow db endpointId account).statusAsOf.all P.loadable = true

/-- The trade is newer than the status, and its text can be stored. -/
def Stamps (trade : ParsedTrade) : Prop :=
  Later db endpointId trade ∧ trade.description.storable = true

/-- The trade is newer than the status, and its text cannot be stored. -/
def Refused (trade : ParsedTrade) : Prop :=
  Later db endpointId trade ∧ trade.description.storable = false

/-- The trades of the account have different times, other than the one of its row. -/
def Timed (arrivals : List (Uuid × ParsedTrade)) (account : PyStr) : Prop :=
  (∀ m ∈ arrivals, ∀ m' ∈ arrivals, m.2.account = account → m'.2.account = account →
      m.2.executedAt = m'.2.executedAt → m.2 = m'.2) ∧
    ∀ m ∈ arrivals, m.2.account = account →
      (db.ledgerAccounts.get? (endpointId, account)).bind Account.statusAsOf ≠ some m.2.executedAt

/-- The row of an account after the arrivals. -/
def rowAfter (arrivals : List (Uuid × ParsedTrade)) (account : PyStr) : Option Account :=
  (safeRun P endpointId db arrivals).ledgerAccounts.get? (endpointId, account)

/-- Two sequences of arrivals lead to the same processed events, balances and timestamps, and where
the trades of an account have different times to the same status, which is that of the latest trade
if the timestamp has advanced. -/
structure Converges (arrivals arrivals' : List (Uuid × ParsedTrade)) : Prop where
  processed : ∀ eventId,
    (safeRun P endpointId db arrivals).ledgerProcessed.get? (endpointId, eventId) =
      (safeRun P endpointId db arrivals').ledgerProcessed.get? (endpointId, eventId)
  accounts : ∀ account, (rowAfter P endpointId db arrivals account).map core =
    (rowAfter P endpointId db arrivals' account).map core
  status : ∀ account, Timed endpointId db arrivals account →
    (rowAfter P endpointId db arrivals account).bind Account.status =
      (rowAfter P endpointId db arrivals' account).bind Account.status
  latest : ∀ account, Timed endpointId db arrivals account →
    (rowAfter P endpointId db arrivals account).bind Account.statusAsOf ≠
      (db.ledgerAccounts.get? (endpointId, account)).bind Account.statusAsOf →
    ∃ m ∈ arrivals, m.2.account = account ∧
      (rowAfter P endpointId db arrivals account).bind Account.statusAsOf = some m.2.executedAt ∧
      (rowAfter P endpointId db arrivals account).bind Account.status = some m.2.description ∧
      ∀ m' ∈ arrivals, m'.2.account = account → m'.2.executedAt ≤ m.2.executedAt

/-- **No arrival decides whether another of its account is refused**: beside a trade that stamps the
row there is none that it keeps out, and none that is refused before it and not after it. -/
structure OrderFree (arrivals : List (Uuid × ParsedTrade)) : Prop where
  /-- After a time that cannot be read back, nothing is applied. -/
  unreadable : ∀ m ∈ arrivals, ∀ m' ∈ arrivals, m ≠ m' → m'.2.account = m.2.account →
    Usable P endpointId db m.2.account → Stamps endpointId db m.2 →
    P.loadable m.2.executedAt = false → Refused endpointId db m'.2
  /-- After a trade that is as new, a refused one is applied. -/
  late : ∀ m ∈ arrivals, ∀ m' ∈ arrivals, m ≠ m' → m'.2.account = m.2.account →
    Usable P endpointId db m.2.account → Stamps endpointId db m.2 → Refused endpointId db m'.2 →
    P.loadable m.2.executedAt = true → m.2.executedAt < m'.2.executedAt
  /-- A refused trade is not the latest. -/
  latest : ∀ m ∈ arrivals, ∀ m' ∈ arrivals, m ≠ m' → m'.2.account = m.2.account →
    Usable P endpointId db m.2.account → Stamps endpointId db m.2 → Refused endpointId db m'.2 →
    Timed endpointId db arrivals m.2.account → m'.2.executedAt ≤ m.2.executedAt

end Definitions

/-! ## Timestamps only advance -/

/-- The timestamp of a row, after which a time is later than it. -/
theorem later_iff {endpointId : Uuid} {db : Database} {trade : ParsedTrade} :
    Later db endpointId trade ↔
      ∀ s, (db.ledgerAccounts.get? (endpointId, trade.account)).bind Account.statusAsOf = some s →
        s < trade.executedAt := by
  unfold Later accountRow
  cases db.ledgerAccounts.get? (endpointId, trade.account) with
  | none => simp [Account.opened]
  | some row => cases hasOf : row.statusAsOf <;> simp [hasOf]

/-- Crediting keeps a timestamp or advances it. -/
theorem le_statusAsOf_creditAll {row : Option Account} {s : Time}
    (h : row.bind Account.statusAsOf = some s) (trades : List ParsedTrade) :
    ∃ t, (creditAll row trades).bind Account.statusAsOf = some t ∧ s ≤ t := by
  induction trades using List.reverseRecOn with
  | nil => exact ⟨s, h, le_rfl⟩
  | append_singleton trades last ih =>
    obtain ⟨t, ht, hle⟩ := ih
    obtain ⟨r, hr, hrt⟩ := Option.bind_eq_some_iff.1 ht
    have hlast : creditAll row (trades ++ [last]) = some (creditRow last r) := by
      rw [creditAll, List.foldl_append]
      change some (creditRow last ((creditAll row trades).getD .opened)) = _
      rw [hr, Option.getD_some]
    rw [hlast, Option.bind_some]
    unfold creditRow
    dsimp only
    split
    · next hnew =>
      rw [hrt] at hnew
      exact ⟨_, rfl, hle.trans (of_decide_eq_true hnew).le⟩
    · exact ⟨t, hrt, hle⟩

theorem balance_creditAll (row : Option Account) (trades : List ParsedTrade) :
    ((creditAll row trades).getD .opened).balance =
      (row.getD .opened).balance + (trades.map ParsedTrade.delta).sum := by
  induction trades using List.reverseRecOn with
  | nil => simp [creditAll]
  | append_singleton trades last ih =>
    rw [creditAll, List.foldl_append]
    change (creditRow last ((creditAll row trades).getD .opened)).balance = _
    rw [Alike.creditRow_balance, ih, List.map_append, List.sum_append, List.map_singleton,
      List.sum_singleton, add_assoc]

/-! ## What has been applied -/

section Run

variable {P : Platform} {endpointId : Uuid} {db : Database} {arrivals l : List (Uuid × ParsedTrade)}
  {m : Uuid × ParsedTrade}

theorem safeRun_append (l l' : List (Uuid × ParsedTrade)) :
    safeRun P endpointId db (l ++ l') = safeRun P endpointId (safeRun P endpointId db l) l' :=
  List.foldl_append

theorem safeRun_singleton (m : Uuid × ParsedTrade) : safeRun P endpointId db [m] =
    committed db ((applyTradeSafe P db endpointId m.1 m.2).map Prod.snd) := rfl

/-- Of the arrivals, these have been applied, in this order. -/
structure Done (P : Platform) (endpointId : Uuid) (db : Database)
    (l done : List (Uuid × ParsedTrade)) : Prop where
  subset : done ⊆ l
  nodup : (done.map Prod.fst).Nodup
  bank : bankOf endpointId (safeRun P endpointId db l) =
    applyAll (bankOf endpointId db) (done.map arrival)
  canOpen : ∀ m ∈ done, CanOpen P db endpointId m.2.account
  storable : ∀ account,
    (accountRow (safeRun P endpointId db l) endpointId account).status.all PyStr.storable = true

/-- The trades of the account. -/
def tradesOf (done : List (Uuid × ParsedTrade)) (account : PyStr) : List ParsedTrade :=
  (done.filter fun m => m.2.account = account).map Prod.snd

theorem mem_tradesOf {done : List (Uuid × ParsedTrade)} {account : PyStr} {trade : ParsedTrade} :
    trade ∈ tradesOf done account ↔ ∃ m ∈ done, m.2.account = account ∧ m.2 = trade := by
  simp [tradesOf, and_assoc]

theorem tradesOf_concat_of_ne {done : List (Uuid × ParsedTrade)} {account : PyStr}
    (h : m.2.account ≠ account) : tradesOf (done ++ [m]) account = tradesOf done account := by
  simp [tradesOf, List.filter_append, h]

/-- The arrivals are new events, each with one trade, and the balances are ample. -/
structure Arriving (endpointId : Uuid) (db : Database) (arrivals : List (Uuid × ParsedTrade)) :
    Prop where
  functional : ∀ m ∈ arrivals, ∀ m' ∈ arrivals, m.1 = m'.1 → m = m'
  new : ∀ m ∈ arrivals, db.ledgerProcessed.get? (endpointId, m.1) = none
  ample : Ample endpointId db arrivals

theorem firsts_arrival (hfresh : Arriving endpointId db arrivals) {done : List (Uuid × ParsedTrade)}
    (hsubset : done ⊆ arrivals) (hnodup : (done.map Prod.fst).Nodup) :
    Once.firsts (bankOf endpointId db).processed (done.map arrival) = done.map arrival := by
  refine Once.firsts_eq_self ?_ ?_
  · rw [List.map_map]
    have hval : (Prod.fst ∘ arrival : Uuid × ParsedTrade → EventId) = Fin.val ∘ Prod.fst := rfl
    rw [hval, ← List.map_map]
    exact hnodup.map Fin.val_injective
  · intro x hx
    obtain ⟨m, hm, rfl⟩ := List.mem_map.1 hx
    rw [arrival, mem_processed_iff, hfresh.new m (hsubset hm)]
    exact nofun

namespace Done

variable {done : List (Uuid × ParsedTrade)}

theorem processed_iff (h : Done P endpointId db l done) (hfresh : Arriving endpointId db arrivals)
    (hl : l ⊆ arrivals) {eventId : Uuid} :
    (safeRun P endpointId db l).ledgerProcessed.get? (endpointId, eventId) = some () ↔
      db.ledgerProcessed.get? (endpointId, eventId) = some () ∨ eventId ∈ done.map Prod.fst := by
  rw [← mem_processed_iff, h.bank, applyAll_processed,
    firsts_arrival hfresh (List.Subset.trans h.subset hl) h.nodup, List.mem_append, mem_processed_iff,
    List.map_map]
  refine or_congr_right ?_
  simp only [List.mem_map, Function.comp_apply, arrival, Fin.val_inj]

/-- An arrival has been processed if it has been applied. -/
theorem processed_iff_mem (h : Done P endpointId db l done) (hfresh : Arriving endpointId db arrivals)
    (hl : l ⊆ arrivals) (hm : m ∈ arrivals) :
    (safeRun P endpointId db l).ledgerProcessed.get? (endpointId, m.1) = some () ↔ m ∈ done := by
  rw [h.processed_iff hfresh hl, hfresh.new m hm, or_iff_right nofun, List.mem_map]
  constructor
  · rintro ⟨m', hm', heq⟩
    exact hfresh.functional m' (hl (h.subset hm')) m hm heq ▸ hm'
  · exact fun hmem => ⟨m, hmem, rfl⟩

/-- **A row is its account's row with the applied trades credited.** -/
theorem row_eq (h : Done P endpointId db l done) (hfresh : Arriving endpointId db arrivals)
    (hl : l ⊆ arrivals) (account : PyStr) : rowAfter P endpointId db l account =
      creditAll (db.ledgerAccounts.get? (endpointId, account)) (tradesOf done account) := by
  have hbank := congrFun (congrArg Ledger.accounts h.bank) account
  rw [applyAll_accounts, Bank.credited,
    firsts_arrival hfresh (List.Subset.trans h.subset hl) h.nodup] at hbank
  have htrades : ((done.map arrival).map Prod.snd).filter (fun trade => trade.account = account) =
      tradesOf done account := by
    rw [tradesOf, List.map_map, List.filter_map]
    rfl
  rw [htrades] at hbank
  exact hbank

theorem creditAll_eq_none_iff {row : Option Account} {trades : List ParsedTrade} :
    creditAll row trades = none ↔ row = none ∧ trades = [] := by
  cases trades using List.reverseRecOn with
  | nil => simp [creditAll]
  | append_singleton trades last => simp [creditAll]

theorem canOpen_iff (h : Done P endpointId db l done) (hfresh : Arriving endpointId db arrivals)
    (hl : l ⊆ arrivals) {account : PyStr} :
    CanOpen P (safeRun P endpointId db l) endpointId account ↔ CanOpen P db endpointId account := by
  have hnone : (safeRun P endpointId db l).ledgerAccounts.get? (endpointId, account) = none ↔
      db.ledgerAccounts.get? (endpointId, account) = none ∧ tradesOf done account = [] := by
    rw [← creditAll_eq_none_iff, ← h.row_eq hfresh hl, rowAfter]
  constructor
  · intro hopen hrow
    rcases List.eq_nil_or_concat (tradesOf done account) with htrades | ⟨trades, last, htrades⟩
    · exact hopen (hnone.2 ⟨hrow, htrades⟩)
    · have hlast : last ∈ tradesOf done account := by simp [htrades]
      obtain ⟨m, hm, rfl, -⟩ := mem_tradesOf.1 hlast
      exact h.canOpen m hm hrow
  · exact fun hopen hrow => hopen (hnone.1 hrow).1

theorem nodup_concat (h : Done P endpointId db l done) (hfresh : Arriving endpointId db arrivals)
    (hl : l ⊆ arrivals) (hm : m ∈ arrivals) (hnot : m ∉ done) :
    ((done ++ [m]).map Prod.fst).Nodup := by
  rw [List.map_append, List.map_singleton, List.nodup_append]
  refine ⟨h.nodup, List.nodup_singleton _, fun i hi j hj => ?_⟩
  obtain rfl := List.mem_singleton.1 hj
  rintro rfl
  obtain ⟨m', hm', heq⟩ := List.mem_map.1 hi
  exact hnot (hfresh.functional m' (hl (h.subset hm')) m hm heq ▸ hm')

/-- **When an arrival is applied** that has not been: its account can be opened, the timestamp can be
read, and the text can be stored if it becomes the status. -/
theorem applicable_iff (h : Done P endpointId db l done) (hfresh : Arriving endpointId db arrivals)
    (hl : l ⊆ arrivals) (hm : m ∈ arrivals) (hnot : m ∉ done) :
    Applicable P (safeRun P endpointId db l) endpointId m.2 ↔
      CanOpen P db endpointId m.2.account ∧
      (accountRow (safeRun P endpointId db l) endpointId m.2.account).statusAsOf.all P.loadable =
        true ∧
      (Later (safeRun P endpointId db l) endpointId m.2 → m.2.description.storable = true) := by
  set row := accountRow (safeRun P endpointId db l) endpointId m.2.account with hrow
  have hfits : FitsBalance (row.balance + m.2.delta) := by
    have hsubset : done ++ [m] ⊆ arrivals :=
      List.append_subset.2 ⟨List.Subset.trans h.subset hl, by simpa using hm⟩
    have hnodup := h.nodup_concat hfresh hl hm hnot
    have hbalance : row.balance = (accountRow db endpointId m.2.account).balance +
        ((tradesOf done m.2.account).map ParsedTrade.delta).sum := by
      rw [hrow, accountRow, accountRow, ← balance_creditAll, ← h.row_eq hfresh hl, rowAfter]
    have := hfresh.ample.fits m.2.account (done ++ [m]) hsubset hnodup
    rw [List.filter_append, List.filter_singleton, decide_eq_true rfl, cond_true, List.map_append,
      List.sum_append, List.map_singleton, List.sum_singleton, ← add_assoc] at this
    rw [hbalance, tradesOf, List.map_map]
    exact this
  have hstatus : row.status.all PyStr.storable = true := h.storable m.2.account
  have hstore : storableAccount (creditRow m.2 row) = true ↔
      (Later (safeRun P endpointId db l) endpointId m.2 → m.2.description.storable = true) := by
    unfold storableAccount Later creditRow
    rw [← hrow, decide_eq_true_eq]
    dsimp only
    split
    · next hlater => simpa [hlater] using fun _ => hfits
    · next hlater => simpa [hlater, hfits] using hstatus
  rw [← h.canOpen_iff hfresh hl, ← hstore]
  constructor
  · rintro ⟨hopen, hload, hstorable⟩
    exact ⟨hopen, hload, hstorable⟩
  · rintro ⟨hopen, hload, hstorable⟩
    exact ⟨hopen, hload, hstorable⟩

theorem nil (hfresh : Arriving endpointId db arrivals) : Done P endpointId db [] [] :=
  ⟨List.Subset.refl _, List.nodup_nil, rfl, nofun, hfresh.ample.storable⟩

/-- An arrival that is a duplicate or is refused leaves what there was. -/
theorem skip (h : Done P endpointId db l done) (hfresh : Arriving endpointId db arrivals)
    (hl : l ⊆ arrivals) (hm : m ∈ arrivals)
    (hskip : m ∉ done → ¬ Applicable P (safeRun P endpointId db l) endpointId m.2) :
    Done P endpointId db (l ++ [m]) done := by
  have hrun : safeRun P endpointId db (l ++ [m]) = safeRun P endpointId db l := by
    rw [safeRun_append, safeRun_singleton]
    rcases applyTradeSafe_cases P (safeRun P endpointId db l) endpointId m.1 m.2 with
      ⟨-, hres⟩ | ⟨hnew, happ, -⟩ | ⟨-, -, e, hres⟩
    · rw [hres]
      rfl
    · refine absurd happ (hskip fun hmem => ?_)
      rw [(h.processed_iff_mem hfresh hl hm).2 hmem] at hnew
      cases hnew
    · rw [hres]
      rfl
  exact ⟨List.Subset.trans h.subset (List.subset_append_left _ _), h.nodup, hrun ▸ h.bank, h.canOpen,
    hrun ▸ h.storable⟩

/-- An arrival that is applied is done. -/
theorem apply (h : Done P endpointId db l done) (hfresh : Arriving endpointId db arrivals)
    (hl : l ⊆ arrivals) (hm : m ∈ arrivals) (hnot : m ∉ done)
    (happ : Applicable P (safeRun P endpointId db l) endpointId m.2) :
    Done P endpointId db (l ++ [m]) (done ++ [m]) := by
  have hnew : (safeRun P endpointId db l).ledgerProcessed.get? (endpointId, m.1) = none := by
    rw [Option.eq_none_iff_forall_not_mem]
    exact fun u hu => hnot ((h.processed_iff_mem hfresh hl hm).1 hu)
  have hres : applyTradeSafe P (safeRun P endpointId db l) endpointId m.1 m.2 =
      .ok (.applied, Ledger.credited (safeRun P endpointId db l) endpointId m.1 m.2) := by
    rcases applyTradeSafe_cases P (safeRun P endpointId db l) endpointId m.1 m.2 with
      ⟨hdup, -⟩ | ⟨-, -, hres⟩ | ⟨-, hnot', -⟩
    · rw [hnew] at hdup
      cases hdup
    · exact hres
    · exact absurd happ hnot'
  have hrun : safeRun P endpointId db (l ++ [m]) =
      Ledger.credited (safeRun P endpointId db l) endpointId m.1 m.2 := by
    rw [safeRun_append, safeRun_singleton, hres]
    rfl
  refine ⟨?subset, h.nodup_concat hfresh hl hm hnot, ?bank, ?canOpen, fun account => ?storable⟩
  case subset =>
    intro m' hm'
    rcases List.mem_append.1 hm' with hm' | hm'
    · exact List.mem_append_left _ (h.subset hm')
    · exact List.mem_append_right _ hm'
  case bank =>
    rw [hrun, List.map_append, applyAll, List.foldl_append]
    change _ = (Bank.applyTradeSafe (applyAll _ _) m.1.val m.2).2
    rw [← h.bank, applyTradeSafe_refines hres]
  case canOpen =>
    intro m' hm'
    rcases List.mem_append.1 hm' with hm' | hm'
    · exact h.canOpen m' hm'
    · obtain rfl := List.mem_singleton.1 hm'
      exact (h.canOpen_iff hfresh hl).1 happ.canOpen
  case storable =>
    have hget : ∀ a, (credited (safeRun P endpointId db l) endpointId m.1 m.2).ledgerAccounts.get?
        (endpointId, a) = _ := get?_of_put rfl
    rw [hrun, accountRow, hget]
    split
    · exact (of_decide_eq_true happ.storable).2
    · exact h.storable account

/-- **What holds of the arrivals applied so far** if each step keeps it. -/
theorem exists_done (hfresh : Arriving endpointId db arrivals)
    {Q : List (Uuid × ParsedTrade) → List (Uuid × ParsedTrade) → Prop}
    (h : Done P endpointId db l done) (hl : l ⊆ arrivals) (hQ : Q l done)
    (l' : List (Uuid × ParsedTrade)) (hl' : l' ⊆ arrivals)
    (hskip : ∀ l done m, Done P endpointId db l done → l ⊆ arrivals → m ∈ l' → Q l done →
      (m ∉ done → ¬ Applicable P (safeRun P endpointId db l) endpointId m.2) → Q (l ++ [m]) done)
    (happly : ∀ l done m, Done P endpointId db l done → l ⊆ arrivals → m ∈ l' → Q l done →
      m ∉ done → Applicable P (safeRun P endpointId db l) endpointId m.2 →
      Q (l ++ [m]) (done ++ [m])) :
    ∃ done', Done P endpointId db (l ++ l') done' ∧ Q (l ++ l') done' := by
  induction l' using List.reverseRecOn with
  | nil => exact ⟨done, by rwa [List.append_nil], by rwa [List.append_nil]⟩
  | append_singleton l' m ih =>
    obtain ⟨hinit, hlast⟩ := List.append_subset.1 hl'
    have hm : m ∈ l' ++ [m] := List.mem_append_right _ List.mem_cons_self
    have hall : l ++ l' ⊆ arrivals := List.append_subset.2 ⟨hl, hinit⟩
    obtain ⟨done', hdone, hQ'⟩ := ih hinit
      (fun l done x h hl hx => hskip l done x h hl (List.mem_append_left _ hx))
      (fun l done x h hl hx => happly l done x h hl (List.mem_append_left _ hx))
    rw [← List.append_assoc]
    by_cases happ : m ∉ done' ∧ Applicable P (safeRun P endpointId db (l ++ l')) endpointId m.2
    · exact ⟨_, hdone.apply hfresh hall (hl' hm) happ.1 happ.2,
        happly _ _ _ hdone hall hm hQ' happ.1 happ.2⟩
    · have hnot := not_and.1 happ
      exact ⟨_, hdone.skip hfresh hall (hl' hm) hnot, hskip _ _ _ hdone hall hm hQ' hnot⟩

/-- What has been applied stays applied. -/
theorem exists_extend (h : Done P endpointId db l done) (hfresh : Arriving endpointId db arrivals)
    (hl : l ⊆ arrivals) {l' : List (Uuid × ParsedTrade)} (hl' : l' ⊆ arrivals) :
    ∃ done', Done P endpointId db (l ++ l') done' ∧ done ⊆ done' :=
  exists_done hfresh (Q := fun _ done' => done ⊆ done') h hl (List.Subset.refl done) l' hl'
    (fun _ _ _ _ _ _ hQ _ => hQ)
    fun _ _ _ _ _ _ hQ _ _ => List.Subset.trans hQ (List.subset_append_left _ _)

/-! ### The timestamp of a row -/

theorem statusAsOf_accountRow (db : Database) (account : PyStr) :
    (accountRow db endpointId account).statusAsOf =
      (db.ledgerAccounts.get? (endpointId, account)).bind Account.statusAsOf := by
  unfold accountRow
  cases db.ledgerAccounts.get? (endpointId, account) <;> rfl

/-- What is later than a row is later than the row before. -/
theorem later_of_later (h : Done P endpointId db l done) (hfresh : Arriving endpointId db arrivals)
    (hl : l ⊆ arrivals) {trade : ParsedTrade}
    (hlater : Later (safeRun P endpointId db l) endpointId trade) : Later db endpointId trade := by
  rw [later_iff] at hlater ⊢
  intro s hs
  obtain ⟨t, ht, hle⟩ := le_statusAsOf_creditAll hs (tradesOf done trade.account)
  rw [← h.row_eq hfresh hl] at ht
  exact hle.trans_lt (hlater t ht)

/-- **A timestamp is the one before, or that of a later trade that has been applied.** -/
theorem statusAsOf_cases (h : Done P endpointId db l done) (hfresh : Arriving endpointId db arrivals)
    (hl : l ⊆ arrivals) (account : PyStr) :
    (rowAfter P endpointId db l account).bind Account.statusAsOf =
      (db.ledgerAccounts.get? (endpointId, account)).bind Account.statusAsOf ∨
    ∃ t ∈ done, t.2.account = account ∧ Later db endpointId t.2 ∧
      (rowAfter P endpointId db l account).bind Account.statusAsOf = some t.2.executedAt := by
  rw [h.row_eq hfresh hl]
  rcases status_of_trades (db.ledgerAccounts.get? (endpointId, account)) (tradesOf done account) with
    ⟨hsame, -⟩ | ⟨trade, htrade, hasOf, -, -⟩
  · exact .inl hsame
  obtain ⟨t, ht, rfl, rfl⟩ := mem_tradesOf.1 htrade
  by_cases hlater : Later db endpointId t.2
  · exact .inr ⟨t, ht, rfl, hlater, hasOf⟩
  · -- then the two timestamps are one
    rw [later_iff] at hlater
    push Not at hlater
    obtain ⟨s, hs, hle⟩ := hlater
    obtain ⟨u, hu, hsu⟩ := le_statusAsOf_creditAll hs (tradesOf done t.2.account)
    obtain rfl := Option.some.inj (hu.symm.trans hasOf)
    exact .inl (by rw [hasOf, hs, le_antisymm hle hsu])

/-- A trade whose time the timestamp has advanced to is later than the row was. -/
theorem later_of_advanced (h : Done P endpointId db l done) (hfresh : Arriving endpointId db arrivals)
    (hl : l ⊆ arrivals) {trade : ParsedTrade}
    (hasOf : (rowAfter P endpointId db l trade.account).bind Account.statusAsOf =
      some trade.executedAt)
    (hadvanced : (rowAfter P endpointId db l trade.account).bind Account.statusAsOf ≠
      (db.ledgerAccounts.get? (endpointId, trade.account)).bind Account.statusAsOf) :
    Later db endpointId trade := by
  rw [later_iff]
  intro s hs
  obtain ⟨t, ht, hle⟩ := le_statusAsOf_creditAll hs (tradesOf done trade.account)
  rw [← h.row_eq hfresh hl] at ht
  obtain rfl := Option.some.inj (ht.symm.trans hasOf)
  exact lt_of_le_of_ne hle fun heq => hadvanced (by rw [ht, hs, heq])

end Done

/-! ## Where no arrival decides about another -/

/-- The arrival is applied in whatever order. -/
def Takes (P : Platform) (endpointId : Uuid) (db : Database) (trade : ParsedTrade) : Prop :=
  Usable P endpointId db trade.account ∧ ¬ Refused endpointId db trade

/-- A trade that is taken and newer stamps the row. -/
theorem Takes.stamps {trade : ParsedTrade} (h : Takes P endpointId db trade)
    (hlater : Later db endpointId trade) : Stamps endpointId db trade := by
  refine ⟨hlater, ?_⟩
  by_contra htext
  exact h.2 ⟨hlater, by simpa using htext⟩

theorem Stamps.not_refused {trade : ParsedTrade} (h : Stamps endpointId db trade) :
    ¬ Refused endpointId db trade := by
  rintro ⟨-, hrefused⟩
  rw [h.2] at hrefused
  cases hrefused

section OrderFree

variable {done : List (Uuid × ParsedTrade)}

/-- **What is applied does not depend on what has been.** -/
theorem OrderFree.applicable_iff (hfree : OrderFree P endpointId db arrivals)
    (hfresh : Arriving endpointId db arrivals) (h : Done P endpointId db l done) (hl : l ⊆ arrivals)
    (htaken : ∀ t ∈ done, Takes P endpointId db t.2) (hm : m ∈ arrivals) (hnot : m ∉ done) :
    Applicable P (safeRun P endpointId db l) endpointId m.2 ↔ Takes P endpointId db m.2 := by
  have hne : ∀ t ∈ done, t ≠ m := by
    rintro t ht rfl
    exact hnot ht
  have hin : ∀ t ∈ done, t ∈ arrivals := fun t ht => hl (h.subset ht)
  have hcases := h.statusAsOf_cases hfresh hl m.2.account
  rw [h.applicable_iff hfresh hl hm hnot, Done.statusAsOf_accountRow]
  change _ ∧ ((rowAfter P endpointId db l m.2.account).bind _).all P.loadable = true ∧ _ ↔ _
  constructor
  · rintro ⟨hopen, hload, htext⟩
    refine ⟨⟨hopen, ?_⟩, ?_⟩
    · rw [Done.statusAsOf_accountRow]
      rcases hcases with hsame | ⟨t, ht, haccount, -, -⟩
      · rwa [← hsame]
      · rw [← Done.statusAsOf_accountRow, ← haccount]
        exact (htaken t ht).1.2
    · rintro ⟨hlater, hrefused⟩
      have hlate : ¬ Later (safeRun P endpointId db l) endpointId m.2 := fun hnow => by
        rw [htext hnow] at hrefused
        cases hrefused
      rw [later_iff] at hlate
      push Not at hlate
      obtain ⟨s, hs, hle⟩ := hlate
      rcases hcases with hsame | ⟨t, ht, haccount, htlater, hasOf⟩
      · exact absurd (later_iff.1 hlater s (hsame.symm.trans hs)) (not_lt.2 hle)
      · obtain rfl := Option.some.inj (hs.symm.trans hasOf)
        rw [hasOf] at hload
        exact absurd (hfree.late t (hin t ht) m hm (hne t ht) haccount.symm (htaken t ht).1
          ((htaken t ht).stamps htlater) ⟨hlater, hrefused⟩ hload) (not_lt.2 hle)
  · rintro ⟨⟨hopen, hload⟩, hrefused⟩
    refine ⟨hopen, ?_, fun hnow => ?_⟩
    · rcases hcases with hsame | ⟨t, ht, haccount, htlater, hasOf⟩
      · rwa [hsame, ← Done.statusAsOf_accountRow]
      · rw [hasOf]
        by_contra hunread
        exact hrefused (hfree.unreadable t (hin t ht) m hm (hne t ht) haccount.symm (htaken t ht).1
          ((htaken t ht).stamps htlater) (by simpa using hunread))
    · by_contra htext
      exact hrefused ⟨h.later_of_later hfresh hl hnow, by simpa using htext⟩

/-- **The arrivals that are applied** are the ones that are taken. -/
theorem OrderFree.exists_done (hfree : OrderFree P endpointId db arrivals)
    (hfresh : Arriving endpointId db arrivals) (hl : l ⊆ arrivals) :
    ∃ done, Done P endpointId db l done ∧
      ∀ m, m ∈ done ↔ m ∈ l ∧ Takes P endpointId db m.2 := by
  refine Done.exists_done (l := []) hfresh
    (Q := fun l done => ∀ m, m ∈ done ↔ m ∈ l ∧ Takes P endpointId db m.2)
    (Done.nil hfresh) (List.nil_subset _) (by simp) l hl ?_ ?_
  · intro l' done m h hl' hm hQ hskip m'
    have hm := hl hm
    rw [hQ, List.mem_append, List.mem_singleton]
    refine ⟨fun ⟨hmem, htakes⟩ => ⟨.inl hmem, htakes⟩, ?_⟩
    rintro ⟨hmem | rfl, htakes⟩
    · exact ⟨hmem, htakes⟩
    · by_contra hnot
      have hnot' : m' ∉ done := fun hmem => hnot ((hQ m').1 hmem)
      exact hskip hnot' ((hfree.applicable_iff hfresh h hl' (fun t ht => ((hQ t).1 ht).2) hm hnot').2
        htakes)
  · intro l' done m h hl' hm hQ hnot happ m'
    have htakes :=
      (hfree.applicable_iff hfresh h hl' (fun t ht => ((hQ t).1 ht).2) (hl hm) hnot).1 happ
    rw [List.mem_append, List.mem_append, List.mem_singleton, hQ]
    constructor
    · rintro (⟨hmem, ht⟩ | rfl)
      · exact ⟨.inl hmem, ht⟩
      · exact ⟨.inr rfl, htakes⟩
    · rintro ⟨hmem | rfl, ht⟩
      · exact .inl ⟨hmem, ht⟩
      · exact .inr rfl

/-- **Both sequences lead to the same ledger** where no arrival decides about another. -/
theorem OrderFree.converges (hfree : OrderFree P endpointId db arrivals)
    (hfresh : Arriving endpointId db arrivals) {arrivals' : List (Uuid × ParsedTrade)}
    (hset : ∀ m, m ∈ arrivals' ↔ m ∈ arrivals) :
    Converges P endpointId db arrivals arrivals' := by
  have hsubset' : arrivals' ⊆ arrivals := fun m hm => (hset m).1 hm
  obtain ⟨done, h, hmem⟩ := hfree.exists_done hfresh (List.Subset.refl arrivals)
  obtain ⟨done', h', hmem'⟩ := hfree.exists_done hfresh hsubset'
  have hdone : ∀ m, m ∈ done ↔ m ∈ done' := fun m => by rw [hmem, hmem', hset]
  obtain ⟨-, hprocessed, haccounts⟩ := @Bank.converges (bankOf endpointId db) (done.map arrival)
    (done'.map arrival)
    (fun x => by simp only [List.mem_map, hdone])
    (fun x hx y hy hxy => by
      obtain ⟨m, hm, rfl⟩ := List.mem_map.1 hx
      obtain ⟨m', hm', rfl⟩ := List.mem_map.1 hy
      exact congrArg arrival (hfresh.functional m ((hmem m).1 hm).1 m' ((hmem m').1 hm').1
        (Fin.ext hxy)))
    (fun x hx => by
      obtain ⟨m, hm, rfl⟩ := List.mem_map.1 hx
      rw [arrival, mem_processed_iff, hfresh.new m ((hmem m).1 hm).1]
      exact nofun)
  rw [← h.bank, ← h'.bank] at hprocessed haccounts
  have htimed : ∀ {account}, Timed endpointId db arrivals account →
      (∀ x ∈ done.map arrival, ∀ y ∈ done.map arrival, x.2.account = account →
        y.2.account = account → x.2.executedAt = y.2.executedAt → x.2 = y.2) ∧
      ∀ x ∈ done.map arrival, x.2.account = account →
        ((bankOf endpointId db).accounts account).bind Account.statusAsOf ≠
          some x.2.executedAt := by
    intro account htimed
    constructor
    · intro x hx y hy hxa hya hxy
      obtain ⟨m, hm, rfl⟩ := List.mem_map.1 hx
      obtain ⟨m', hm', rfl⟩ := List.mem_map.1 hy
      exact htimed.1 m ((hmem m).1 hm).1 m' ((hmem m').1 hm').1 hxa hya hxy
    · intro x hx hxa
      obtain ⟨m, hm, rfl⟩ := List.mem_map.1 hx
      exact htimed.2 m ((hmem m).1 hm).1 hxa
  refine ⟨fun eventId => ?processed, fun account => (haccounts account).1,
    fun account ht => ((haccounts account).2 (htimed ht).1 (htimed ht).2).1,
    fun account ht hadvanced => ?latest⟩
  case processed =>
    have hiff := hprocessed eventId.val
    rw [mem_processed_iff, mem_processed_iff] at hiff
    exact Option.ext fun _ => hiff
  case latest =>
    obtain ⟨x, hx, haccount, hasOf, hstatus, hlatest⟩ :=
      ((haccounts account).2 (htimed ht).1 (htimed ht).2).2 hadvanced
    obtain ⟨m, hm, rfl⟩ := List.mem_map.1 hx
    obtain rfl : m.2.account = account := haccount
    obtain ⟨hin, htakes⟩ := (hmem m).1 hm
    refine ⟨m, hin, rfl, hasOf, hstatus, fun m' hm' haccount' => ?_⟩
    by_cases hm'done : m' ∈ done
    · exact hlatest _ (List.mem_map_of_mem hm'done) haccount'
    -- an arrival that is not applied is refused
    have hrefused : Refused endpointId db m'.2 := by
      by_contra hnot
      refine hm'done ((hmem m').2 ⟨hm', ?_, hnot⟩)
      rw [haccount']
      exact htakes.1
    have hlater := h.later_of_advanced hfresh (List.Subset.refl _) hasOf hadvanced
    refine hfree.latest m hin m' hm' ?_ haccount' htakes.1 (htakes.stamps hlater) hrefused ht
    rintro rfl
    exact hm'done hm

end OrderFree

/-! ## Where one does -/

section Orders

variable {m' : Uuid × ParsedTrade}

/-- A trade that is not refused is applied if it arrives first. -/
theorem done_singleton (hfresh : Arriving endpointId db arrivals) (hm : m ∈ arrivals)
    (husable : Usable P endpointId db m.2.account) (hnot : ¬ Refused endpointId db m.2) :
    Done P endpointId db [m] [m] := by
  refine (Done.nil hfresh).apply hfresh (List.nil_subset _) hm List.not_mem_nil ?_
  refine ((Done.nil hfresh).applicable_iff hfresh (List.nil_subset _) hm List.not_mem_nil).2
    ⟨husable.1, husable.2, fun hlater => ?_⟩
  by_contra htext
  exact hnot ⟨hlater, by simpa using htext⟩

/-- The timestamp after a trade that stamps the row. -/
theorem statusAsOf_singleton (h : Done P endpointId db [m] [m])
    (hfresh : Arriving endpointId db arrivals) (hm : m ∈ arrivals)
    (hlater : Later db endpointId m.2) :
    (rowAfter P endpointId db [m] m.2.account).bind Account.statusAsOf = some m.2.executedAt := by
  have htrades : tradesOf [m] m.2.account = [m.2] := by simp [tradesOf]
  rw [h.row_eq hfresh (by simpa using hm), htrades]
  change (creditRow m.2 (accountRow db endpointId m.2.account)).statusAsOf = _
  unfold Later at hlater
  unfold creditRow
  dsimp only
  rw [if_pos hlater]

/-- **After a time that cannot be read back** nothing else is applied to the account. -/
theorem not_processed_of_unreadable (hfresh : Arriving endpointId db arrivals) (hm : m ∈ arrivals)
    (hm' : m' ∈ arrivals) (hne : m ≠ m') (haccount : m'.2.account = m.2.account)
    (husable : Usable P endpointId db m.2.account) (hstamps : Stamps endpointId db m.2)
    (hunread : P.loadable m.2.executedAt = false) :
    (safeRun P endpointId db (m :: arrivals)).ledgerProcessed.get? (endpointId, m'.1) ≠ some () := by
  have hfirst : Done P endpointId db [m] [m] :=
    done_singleton hfresh hm husable hstamps.not_refused
  obtain ⟨done, h, hstuck⟩ := Done.exists_done hfresh
    (Q := fun _ done => tradesOf done m.2.account = [m.2] ∧
      ∀ x ∈ done, x.2.account = m.2.account → x = m)
    hfirst (by simpa using hm) (by simp [tradesOf]) arrivals (List.Subset.refl _)
    (fun _ _ _ _ _ _ hQ _ => hQ)
    (fun l done x h hl hx hQ hnot happ => by
      by_cases hxa : x.2.account = m.2.account
      · -- the row cannot be read
        obtain ⟨-, hload, -⟩ := (h.applicable_iff hfresh hl hx hnot).1 happ
        rw [Done.statusAsOf_accountRow, hxa] at hload
        change ((rowAfter P endpointId db l m.2.account).bind _).all P.loadable = true at hload
        have htrades : tradesOf [m] m.2.account = tradesOf done m.2.account := by
          rw [hQ.1]
          simp [tradesOf]
        rw [h.row_eq hfresh hl, ← htrades, ← hfirst.row_eq hfresh (by simpa using hm),
          statusAsOf_singleton hfirst hfresh hm hstamps.1, Option.all_some, hunread] at hload
        cases hload
      · refine ⟨?_, fun y hy hya => ?_⟩
        · rw [tradesOf_concat_of_ne hxa, hQ.1]
        · rcases List.mem_append.1 hy with hy | hy
          · exact hQ.2 y hy hya
          · obtain rfl := List.mem_singleton.1 hy
            exact absurd hya hxa)
  have hsubset : [m] ++ arrivals ⊆ arrivals :=
    List.append_subset.2 ⟨by simpa using hm, List.Subset.refl _⟩
  change (safeRun P endpointId db ([m] ++ arrivals)).ledgerProcessed.get? _ ≠ _
  rw [Ne, h.processed_iff_mem hfresh hsubset hm']
  exact fun hmem => hne (hstuck.2 m' hmem haccount).symm

/-- What is applied first has been processed in the end. -/
theorem processed_of_done (hfresh : Arriving endpointId db arrivals) {done : List (Uuid × ParsedTrade)}
    (h : Done P endpointId db l done) (hl : l ⊆ arrivals) (hm : m ∈ done) :
    (safeRun P endpointId db (l ++ arrivals)).ledgerProcessed.get? (endpointId, m.1) = some () := by
  obtain ⟨done', h', hsubset⟩ := h.exists_extend hfresh hl (List.Subset.refl arrivals)
  exact (h'.processed_iff_mem hfresh (List.append_subset.2 ⟨hl, List.Subset.refl _⟩)
    (hl (h.subset hm))).2 (hsubset hm)

/-- A refused trade is applied after one that is as new. -/
theorem done_late (hfresh : Arriving endpointId db arrivals) (hm : m ∈ arrivals) (hm' : m' ∈ arrivals)
    (hne : m ≠ m') (haccount : m'.2.account = m.2.account)
    (husable : Usable P endpointId db m.2.account) (hstamps : Stamps endpointId db m.2)
    (hread : P.loadable m.2.executedAt = true) (hle : m'.2.executedAt ≤ m.2.executedAt) :
    Done P endpointId db [m, m'] [m, m'] := by
  have hsubset : [m] ⊆ arrivals := by simpa using hm
  have hnot : m' ∉ [m] := by simpa using hne.symm
  have hfirst := done_singleton hfresh hm husable hstamps.not_refused
  have hasOf := statusAsOf_singleton hfirst hfresh hm hstamps.1
  refine hfirst.apply hfresh hsubset hm' hnot ((hfirst.applicable_iff hfresh hsubset hm' hnot).2
    ⟨haccount ▸ husable.1, ?_, fun hlater => ?_⟩)
  · rw [Done.statusAsOf_accountRow, haccount]
    change ((rowAfter P endpointId db [m] m.2.account).bind _).all P.loadable = true
    rw [hasOf, Option.all_some, hread]
  · rw [later_iff, haccount] at hlater
    exact absurd (hlater _ hasOf) (not_lt.2 hle)

/-- A refused trade that arrives first and not again is not applied. -/
theorem not_processed_of_refused (hfresh : Arriving endpointId db arrivals) (hm' : m' ∈ arrivals)
    (hrefused : Refused endpointId db m'.2) :
    (safeRun P endpointId db (m' :: arrivals.filter (· ≠ m'))).ledgerProcessed.get?
      (endpointId, m'.1) ≠ some () := by
  have hfirst : Done P endpointId db [m'] [] := by
    refine (Done.nil hfresh).skip hfresh (List.nil_subset _) hm' fun hnot happ => ?_
    obtain ⟨-, -, htext⟩ :=
      ((Done.nil hfresh).applicable_iff hfresh (List.nil_subset _) hm' hnot).1 happ
    have htrue := htext hrefused.1
    rw [hrefused.2] at htrue
    cases htrue
  have hrest : arrivals.filter (· ≠ m') ⊆ arrivals := List.filter_subset_self _
  obtain ⟨done, h, hnot⟩ := Done.exists_done hfresh (Q := fun _ done => m' ∉ done) hfirst
    (by simpa using hm') List.not_mem_nil _ hrest (fun _ _ _ _ _ _ hQ _ => hQ)
    (fun l done x _ _ hx hQ _ _ => by
      rw [List.mem_append, List.mem_singleton, not_or]
      exact ⟨hQ, fun heq => of_decide_eq_true (List.mem_filter.1 hx).2 heq.symm⟩)
  have hsubset : [m'] ++ arrivals.filter (· ≠ m') ⊆ arrivals :=
    List.append_subset.2 ⟨by simpa using hm', hrest⟩
  change (safeRun P endpointId db ([m'] ++ _)).ledgerProcessed.get? _ ≠ _
  rwa [Ne, h.processed_iff_mem hfresh hsubset hm']

end Orders

/-! ## What agreement needs -/

section Agreement

variable {m' : Uuid × ParsedTrade} (hfresh : Arriving endpointId db arrivals)
  (hall : ∀ arrivals', (∀ m, m ∈ arrivals' ↔ m ∈ arrivals) →
    Converges P endpointId db arrivals arrivals')

/-- An arrival may come once more. -/
theorem mem_cons_arrivals (hm : m ∈ arrivals) (x : Uuid × ParsedTrade) :
    x ∈ m :: arrivals ↔ x ∈ arrivals := by
  rw [List.mem_cons]
  refine or_iff_right_of_imp ?_
  rintro rfl
  exact hm

/-- The trade that the timestamp comes from has stamped the row: its text has been stored. -/
theorem stamps_of_latest (hfresh : Arriving endpointId db arrivals)
    (hadvanced : (rowAfter P endpointId db arrivals m.2.account).bind Account.statusAsOf ≠
      (db.ledgerAccounts.get? (endpointId, m.2.account)).bind Account.statusAsOf)
    (hasOf : (rowAfter P endpointId db arrivals m.2.account).bind Account.statusAsOf =
      some m.2.executedAt)
    (hstatus : (rowAfter P endpointId db arrivals m.2.account).bind Account.status =
      some m.2.description) : Stamps endpointId db m.2 := by
  obtain ⟨done, h, -⟩ := (Done.nil (P := P) hfresh).exists_extend hfresh (List.nil_subset _)
    (List.Subset.refl arrivals)
  refine ⟨h.later_of_advanced hfresh (List.Subset.refl _) hasOf hadvanced, ?_⟩
  have hstorable := h.storable m.2.account
  obtain ⟨row, hrow, hrowStatus⟩ := Option.bind_eq_some_iff.1 hstatus
  unfold rowAfter at hrow
  rw [List.nil_append, accountRow, hrow, Option.getD_some, hrowStatus] at hstorable
  exact hstorable

include hall

/-- Any two orders agree, since both agree with the given one. -/
theorem processed_of_order {l l' : List (Uuid × ParsedTrade)} (hl : ∀ x, x ∈ l ↔ x ∈ arrivals)
    (hl' : ∀ x, x ∈ l' ↔ x ∈ arrivals) {eventId : Uuid}
    (h : (safeRun P endpointId db l).ledgerProcessed.get? (endpointId, eventId) = some ()) :
    (safeRun P endpointId db l').ledgerProcessed.get? (endpointId, eventId) = some () :=
  ((hall l' hl').processed eventId).symm.trans (((hall l hl).processed eventId).trans h)

include hfresh

/-- A trade beside one with a time that cannot be read back is refused. -/
theorem refused_of_unreadable (hm : m ∈ arrivals) (hm' : m' ∈ arrivals) (hne : m ≠ m')
    (haccount : m'.2.account = m.2.account) (husable : Usable P endpointId db m.2.account)
    (hstamps : Stamps endpointId db m.2) (hunread : P.loadable m.2.executedAt = false) :
    Refused endpointId db m'.2 := by
  by_contra hnot
  -- it is applied if it arrives first
  have hfirst := done_singleton hfresh hm' (haccount ▸ husable) hnot
  have hprocessed := processed_of_done hfresh hfirst (by simpa using hm') List.mem_cons_self
  exact not_processed_of_unreadable hfresh hm hm' hne haccount husable hstamps hunread
    (processed_of_order hall (mem_cons_arrivals hm') (mem_cons_arrivals hm) hprocessed)

/-- A refused trade is later than one that stamps the row. -/
theorem lt_of_refused (hm : m ∈ arrivals) (hm' : m' ∈ arrivals) (hne : m ≠ m')
    (haccount : m'.2.account = m.2.account) (husable : Usable P endpointId db m.2.account)
    (hstamps : Stamps endpointId db m.2) (hrefused : Refused endpointId db m'.2)
    (hread : P.loadable m.2.executedAt = true) : m.2.executedAt < m'.2.executedAt := by
  by_contra hle
  -- it is applied if it arrives second
  have hdone := done_late hfresh hm hm' hne haccount husable hstamps hread (not_lt.1 hle)
  have hprocessed := processed_of_done hfresh hdone (by simp [hm, hm'])
    (List.mem_cons_of_mem m List.mem_cons_self)
  refine not_processed_of_refused hfresh hm' hrefused
    (processed_of_order (l := m :: m' :: arrivals) hall (fun x => ?_) (fun x => ?_) hprocessed)
  · rw [List.mem_cons, mem_cons_arrivals hm']
    exact or_iff_right_of_imp fun hx => hx ▸ hm
  · rw [List.mem_cons, List.mem_filter, decide_eq_true_eq]
    by_cases hx : x = m'
    · simp [hx, hm']
    · simp [hx]

/-- A trade that stamps the row advances the timestamp. -/
theorem advanced_of_stamps (hm : m ∈ arrivals) (husable : Usable P endpointId db m.2.account)
    (hstamps : Stamps endpointId db m.2) :
    (rowAfter P endpointId db arrivals m.2.account).bind Account.statusAsOf ≠
      (db.ledgerAccounts.get? (endpointId, m.2.account)).bind Account.statusAsOf := by
  have hsubset : [m] ⊆ arrivals := by simpa using hm
  -- if it arrives first, the timestamp does not fall behind it
  obtain ⟨done, h, hdone⟩ := (done_singleton hfresh hm husable hstamps.not_refused).exists_extend
    hfresh hsubset (List.Subset.refl arrivals)
  obtain ⟨t, ht, hle⟩ := executedAt_le (db.ledgerAccounts.get? (endpointId, m.2.account))
    (tradesOf done m.2.account) m.2 (mem_tradesOf.2 ⟨m, hdone List.mem_cons_self, rfl, rfl⟩)
  rw [← h.row_eq hfresh (List.append_subset.2 ⟨hsubset, List.Subset.refl _⟩)] at ht
  have hcore := congrArg (fun x => x.bind Prod.snd)
    ((hall (m :: arrivals) (mem_cons_arrivals hm)).accounts m.2.account)
  simp only [Option.bind_map] at hcore
  intro hsame
  exact absurd (later_iff.1 hstamps.1 t (hsame.symm.trans (hcore.trans ht))) (not_lt.2 hle)

/-- A refused trade is not later than one that stamps the row. -/
theorem executedAt_le_of_refused (hm : m ∈ arrivals) (hm' : m' ∈ arrivals)
    (haccount : m'.2.account = m.2.account) (husable : Usable P endpointId db m.2.account)
    (hstamps : Stamps endpointId db m.2) (hrefused : Refused endpointId db m'.2)
    (htimed : Timed endpointId db arrivals m.2.account) : m'.2.executedAt ≤ m.2.executedAt := by
  by_contra hnot
  have hadvanced := advanced_of_stamps hfresh hall hm husable hstamps
  -- the latest trade stamps the row, so it is not the refused one
  obtain ⟨m₁, hm₁, haccount₁, hasOf, hstatus, hlatest⟩ :=
    (hall arrivals fun _ => Iff.rfl).latest m.2.account htimed hadvanced
  have hle := hlatest m' hm' haccount
  rw [← haccount₁] at hadvanced hasOf hstatus husable
  have hstamps₁ := stamps_of_latest hfresh hadvanced hasOf hstatus
  have hne₁ : m₁ ≠ m' := by
    rintro rfl
    exact hstamps₁.not_refused hrefused
  cases hread : P.loadable m₁.2.executedAt with
  | true =>
    exact absurd (lt_of_refused hfresh hall hm₁ hm' hne₁ (haccount.trans haccount₁.symm) husable
      hstamps₁ hrefused hread) (not_lt.2 hle)
  | false =>
    have hne : m₁ ≠ m := by
      rintro rfl
      exact hnot hle
    exact hstamps.not_refused (refused_of_unreadable hfresh hall hm₁ hm hne haccount₁.symm husable
      hstamps₁ hread)

end Agreement

/-- **Two sequences of the same arrivals lead to the same ledger** exactly if no arrival decides
whether another is refused. -/
theorem converges_iff (hfresh : Arriving endpointId db arrivals) :
    (∀ arrivals', (∀ m, m ∈ arrivals' ↔ m ∈ arrivals) →
      Converges P endpointId db arrivals arrivals') ↔ OrderFree P endpointId db arrivals := by
  refine ⟨fun hall => ⟨?_, ?_, ?_⟩, fun hfree arrivals' hset => hfree.converges hfresh hset⟩
  · exact fun m hm m' hm' => refused_of_unreadable hfresh hall hm hm'
  · exact fun m hm m' hm' => lt_of_refused hfresh hall hm hm'
  · exact fun m hm m' hm' _ => executedAt_le_of_refused hfresh hall hm hm'

end Run

/-! ## Times in the year 10000 -/

theorem natAbs_sum_le (l : List ℤ) : l.sum.natAbs ≤ (l.map Int.natAbs).sum := by
  induction l with
  | nil => rfl
  | cons n l ih =>
    rw [List.sum_cons, List.map_cons, List.sum_cons]
    exact (Int.natAbs_add_le _ _).trans (Nat.add_le_add_left ih _)

/-- Balances are ample if the amounts of all arrivals together leave them in their column. -/
theorem ample_of_total {endpointId : Uuid} {db : Database} {arrivals : List (Uuid × ParsedTrade)}
    (htotal : ∀ account, (accountRow db endpointId account).balance.natAbs +
      (arrivals.map fun m => m.2.delta.natAbs).sum < 10 ^ 18)
    (hstorable : ∀ account,
      (accountRow db endpointId account).status.all PyStr.storable = true) :
    Ample endpointId db arrivals := by
  refine ⟨fun account done hsubset hnodup => ?_, hstorable⟩
  have hpart : (((done.filter fun m => m.2.account = account).map fun m => m.2.delta).map
      Int.natAbs).sum ≤ (arrivals.map fun m => m.2.delta.natAbs).sum := by
    rw [List.map_map]
    obtain ⟨done', hperm, hsub⟩ := List.subperm_of_subset hnodup.of_map hsubset
    calc ((done.filter fun m => m.2.account = account).map fun m => m.2.delta.natAbs).sum
        ≤ (done.map fun m => m.2.delta.natAbs).sum :=
          (List.filter_sublist.map _).sum_le_sum fun _ _ => Nat.zero_le _
      _ = (done'.map fun m => m.2.delta.natAbs).sum := (hperm.map _).sum_eq.symm
      _ ≤ (arrivals.map fun m => m.2.delta.natAbs).sum :=
          (hsub.map _).sum_le_sum fun _ _ => Nat.zero_le _
  have hsum := natAbs_sum_le
    ((done.filter fun m => m.2.account = account).map fun m => m.2.delta)
  have hadd := Int.natAbs_add_le (accountRow db endpointId account).balance
    ((done.filter fun m => m.2.account = account).map fun m => m.2.delta).sum
  have hall := htotal account
  unfold FitsBalance
  omega

/-- Trades that can be kept decide about no other. -/
theorem orderFree_of_keepable {P : Platform} {endpointId : Uuid} {db : Database}
    {arrivals : List (Uuid × ParsedTrade)} (h : ∀ m ∈ arrivals, Keepable P m.2) :
    OrderFree P endpointId db arrivals := by
  have hkept : ∀ m ∈ arrivals, ¬ Refused endpointId db m.2 := by
    rintro m hm ⟨-, htext⟩
    rw [(h m hm).2] at htext
    cases htext
  refine ⟨fun m hm m' hm' _ _ _ _ hunread => ?_,
    fun m hm m' hm' _ _ _ _ hrefused _ => absurd hrefused (hkept m' hm'),
    fun m hm m' hm' _ _ _ _ hrefused _ => absurd hrefused (hkept m' hm')⟩
  rw [(h m hm).1] at hunread
  cases hunread

/-- Three purchases, two of them out of order and one of them twice. -/
def lateArrivals : List (Uuid × ParsedTrade) :=
  [(.ofNat 2, purchaseAt 1700000001), (.ofNat 1, purchaseAt 1700000000),
    (.ofNat 3, { purchaseAt 1700000000 with account := ofString "bob" }),
    (.ofNat 2, purchaseAt 1700000001)]

/-- In a new database every account opens with the same balance. -/
theorem ample_empty {endpointId : Uuid} {arrivals : List (Uuid × ParsedTrade)}
    (h : startingBalance.natAbs + (arrivals.map fun m => m.2.delta.natAbs).sum < 10 ^ 18) :
    Ample endpointId .empty arrivals :=
  ample_of_total (fun _ => h) fun _ => rfl

theorem arriving_lateArrivals : Arriving (.ofNat 9) .empty lateArrivals :=
  ⟨by decide, fun _ _ => rfl, ample_empty (by decide)⟩

/-- They end as in their order. -/
theorem converges_iff_lateArrivals : Converges .ascii (.ofNat 9) .empty lateArrivals
    [(.ofNat 1, purchaseAt 1700000000), (.ofNat 2, purchaseAt 1700000001),
      (.ofNat 3, { purchaseAt 1700000000 with account := ofString "bob" })] := by
  refine (converges_iff arriving_lateArrivals).2 (orderFree_of_keepable ?_) _ fun m => ?_
  · unfold Keepable
    decide
  · simp only [lateArrivals, List.mem_cons, List.not_mem_nil, or_false]
    tauto

/-- `9999-12-31T23:59:59-12:00` is in the year 10000. If it arrives first, the other trade of the
account is refused; if it arrives last, both are applied. -/
theorem not_converges : ¬ ∀ (P : Platform) (endpointId : Uuid) (db : Database)
    (arrivals arrivals' : List (Uuid × ParsedTrade)), Arriving endpointId db arrivals →
    (∀ m, m ∈ arrivals' ↔ m ∈ arrivals) → Converges P endpointId db arrivals arrivals' := by
  intro hall
  have h := (hall .ascii (.ofNat 9) .empty
    [(.ofNat 1, purchaseAt 253402343999), (.ofNat 2, purchaseAt 1700000000)]
    [(.ofNat 2, purchaseAt 1700000000), (.ofNat 1, purchaseAt 253402343999)]
    ⟨by decide, fun _ _ => rfl, ample_empty (by decide)⟩
    (fun m => by simp [or_comm])).processed (.ofNat 2)
  revert h
  decide +kernel

end Hookit.Ledger
