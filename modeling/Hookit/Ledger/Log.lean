import Hookit.Foundations.Machine
import Hookit.Ledger.Agreement
import Hookit.Ledger.Meter

/-!
# The event log and the two banks

The system that the reconciliation meter looks at: `POST /events` appends trades to the log, and
deliveries of logged trades reach the banks, each of them any number of times and in any order.
Bank B applies a trade in one transaction (`apply_trade_safe` takes the row lock before it reads);
Bank A's transaction reads a balance at one moment and commits at a later one. A delivery's body
gives the stored payload back, and a transaction whose statement raises leaves nothing behind.

`meter_returns`: in every reachable state whose log is `Ordinary` the meter returns. One event is
enough for a log that is not, and for a meter that raises (`not_meter_returns`).
-/

namespace Hookit.Ledger

open Foundations Foundations.PyStr Foundations.PyDecimal Bank

/-- The committed rows, and what the open transactions of Bank A have read. -/
structure LogState where
  db : Database
  reads : ℕ → Option (ParsedTrade × Cents)

/-- What can happen next. -/
inductive LogAction
  /-- `POST /events` by a project, with the type `trade.executed`. -/
  | publish (eventId projectId : Uuid) (createdAt : Aware) (payload : JsonObject)
  /-- A delivery of the event reaches Bank A, which reads the balance. -/
  | readNaive (request : ℕ) (eventId : Uuid)
  /-- The transaction of the request commits. -/
  | writeNaive (request : ℕ)
  /-- A delivery of the event reaches Bank B. -/
  | deliverSafe (eventId : Uuid)

/-- `EventCreate.payload_size` and the column `payload`. -/
def admitPayload (maxBytes : ℕ) (payload : JsonObject) : Option Json.StoredObject :=
  if ((Json.obj payload).dumps (ofString ",") (ofString ":")).length ≤ maxBytes then
    Json.storeObject? payload
  else none

section System

variable (P : Platform) (maxBytes : ℕ) (projectId naiveId safeId : Uuid)

/-- The trade that the banks find in a delivery of the event. -/
def tradeOf? (db : Database) (eventId : Uuid) : Option ParsedTrade := do
  let event ← db.events.get? eventId
  if event.projectId = projectId ∧ event.type = tradeExecuted then trade? P event.payload.1 else none

/-- Admit an event to the log. -/
def publish (db : Database) (eventId projectId : Uuid) (createdAt : Aware) (payload : JsonObject) :
    Option Database :=
  if (db.events.get? eventId).isSome then none
  else (admitPayload maxBytes payload).map fun payload =>
    db.withEvents (db.events.insert eventId ⟨projectId, tradeExecuted, payload, none, createdAt⟩)

/-- Bank A's write, in a transaction that has inserted the account's row if there was none. -/
def commitNaive (db : Database) (trade : ParsedTrade) (readBalance : Cents) :
    Except PyError Database := do
  let db ← ensureAccountRow P db naiveId trade.account
  writeNaive db naiveId trade readBalance

/-- Publications and deliveries in any order. -/
def system : Machine LogState LogAction where
  init := ⟨.empty, fun _ => none⟩
  step
    | .publish eventId projectId createdAt payload, s => do
      let db ← publish maxBytes s.db eventId projectId createdAt payload
      return { s with db }
    | .readNaive request eventId, s => do
      let trade ← tradeOf? P projectId s.db eventId
      -- a row that the transaction opens is not visible before it commits
      let (balance, _) ← (readNaive P s.db naiveId trade).toOption
      return { s with reads := Function.update s.reads request (some (trade, balance)) }
    | .writeNaive request, s => do
      let (trade, balance) ← s.reads request
      let db ← (commitNaive P naiveId s.db trade balance).toOption
      return ⟨db, Function.update s.reads request none⟩
    | .deliverSafe eventId, s => do
      let trade ← tradeOf? P projectId s.db eventId
      let (_, db) ← (applyTradeSafe P s.db safeId eventId trade).toOption
      return { s with db }

/-- The banks accept the trade from a logged event. -/
def Accepted (db : Database) (trade : ParsedTrade) : Prop :=
  ∃ eventId, tradeOf? P projectId db eventId = some trade

/-- The log is one that the meter can read beside whatever the banks make of it. -/
structure Ordinary (db : Database) : Prop where
  /-- An amount fits `numeric`. -/
  castable : ∀ t ∈ loggedTrades P db projectId, t.castable = true
  /-- An account's amounts sum to 28 digits of cents, less what a balance may hold. -/
  sum (account : PyStr) : (startingBalance + sumCents (groupOf (loggedTrades P db projectId)
    account)).natAbs + 10 ^ 18 ≤ 10 ^ precision
  /-- The time of a trade that a bank accepts is read back from the column. -/
  loadable : ∀ trade, Accepted P projectId db trade → P.loadable trade.executedAt = true
  /-- The greatest time in an account for which a bank accepts a trade has an offset, if it is a
  time at all. -/
  offset : ∀ trade, Accepted P projectId db trade → ∀ w,
    latest P (groupOf (loggedTrades P db projectId) trade.account) ≠ some (.naive w)

end System

/-! ## Deciding whether a log is ordinary -/

section Decide

variable {P : Platform} {projectId : Uuid} {db : Database}

/-- A datetime without an offset. -/
def isNaive : Option Datetime → Bool
  | some (.naive _) => true
  | _ => false

theorem isNaive_eq_false_iff {latest : Option Datetime} :
    isNaive latest = false ↔ ∀ w, latest ≠ some (.naive w) := by
  cases latest with
  | none => simp [isNaive]
  | some t => cases t <;> simp [isNaive]

/-- Accounts without trades and ids without events need no check. -/
theorem ordinary_iff : Ordinary P projectId db ↔
    (∀ t ∈ loggedTrades P db projectId, t.castable = true) ∧
    (∀ t ∈ loggedTrades P db projectId, (startingBalance +
      sumCents (groupOf (loggedTrades P db projectId) t.account)).natAbs + 10 ^ 18 ≤
        10 ^ precision) ∧
    ∀ e ∈ db.events.entries, ∀ trade ∈ tradeOf? P projectId db e.1,
      P.loadable trade.executedAt = true ∧
      isNaive (latest P (groupOf (loggedTrades P db projectId) trade.account)) = false := by
  constructor
  · intro h
    refine ⟨h.castable, fun t _ => h.sum t.account, fun e _ trade htrade => ⟨?_, ?_⟩⟩
    · exact h.loadable trade ⟨e.1, htrade⟩
    · exact isNaive_eq_false_iff.2 (h.offset trade ⟨e.1, htrade⟩)
  · rintro ⟨hcast, hsum, haccepted⟩
    have hall : ∀ trade, Accepted P projectId db trade → P.loadable trade.executedAt = true ∧
        isNaive (latest P (groupOf (loggedTrades P db projectId) trade.account)) = false := by
      rintro trade ⟨eventId, htrade⟩
      obtain ⟨event, hevent, -⟩ := Option.bind_eq_some_iff.1 htrade
      exact haccepted (eventId, event) (Rows.get?_eq_some_iff.1 hevent) trade htrade
    refine ⟨hcast, fun account => ?_, fun trade h => (hall trade h).1,
      fun trade h => isNaive_eq_false_iff.1 (hall trade h).2⟩
    by_cases hmem : account ∈ (loggedTrades P db projectId).map LoggedTrade.account
    · obtain ⟨t, ht, rfl⟩ := List.mem_map.1 hmem
      exact hsum t ht
    · rw [groupOf_eq_nil hmem, sumCents_nil]
      decide

instance : Decidable (Ordinary P projectId db) := decidable_of_iff' _ ordinary_iff

end Decide

/-! ## What the banks hold -/

section Sound

variable {P : Platform} {maxBytes : ℕ} {projectId naiveId safeId : Uuid}

/-- A row of a bank: its balance fits, and its time is that of a logged trade for the account. -/
def SoundRow (P : Platform) (projectId : Uuid) (db : Database) (account : PyStr) (row : Account) :
    Prop :=
  FitsBalance row.balance ∧ ∀ t, row.statusAsOf = some t →
    ∃ trade, Accepted P projectId db trade ∧ trade.account = account ∧ trade.executedAt = t

/-- The rows of the banks, and the trades of the open transactions, come from the log. -/
structure Sound (P : Platform) (projectId : Uuid) (s : LogState) : Prop where
  rows : ∀ k row, s.db.ledgerAccounts.get? k = some row → SoundRow P projectId s.db k.2 row
  reads : ∀ request trade balance, s.reads request = some (trade, balance) →
    Accepted P projectId s.db trade

theorem Accepted.mono {db db' : Database} {trade : ParsedTrade} (h : Accepted P projectId db trade)
    (hevents : ∀ e v, db.events.get? e = some v → db'.events.get? e = some v) :
    Accepted P projectId db' trade := by
  obtain ⟨eventId, h⟩ := h
  obtain ⟨event, hevent, h⟩ := Option.bind_eq_some_iff.1 h
  exact ⟨eventId, Option.bind_eq_some_iff.2 ⟨event, hevents _ _ hevent, h⟩⟩

theorem SoundRow.mono {db db' : Database} {account : PyStr} {row : Account}
    (h : SoundRow P projectId db account row)
    (hevents : ∀ e v, db.events.get? e = some v → db'.events.get? e = some v) :
    SoundRow P projectId db' account row := by
  refine ⟨h.1, fun t ht => ?_⟩
  obtain ⟨trade, htrade, haccount, hat⟩ := h.2 t ht
  exact ⟨trade, htrade.mono hevents, haccount, hat⟩

theorem publish_eq_some {db db' : Database} {eventId project : Uuid} {createdAt : Aware}
    {payload : JsonObject} (h : publish maxBytes db eventId project createdAt payload = some db') :
    db.events.get? eventId = none ∧ ∃ stored, admitPayload maxBytes payload = some stored ∧
      db' = db.withEvents
        (db.events.insert eventId ⟨project, tradeExecuted, stored, none, createdAt⟩) := by
  unfold publish at h
  split at h
  · cases h
  · next hfresh =>
    obtain ⟨stored, hstored, rfl⟩ := Option.map_eq_some_iff.1 h
    exact ⟨by simpa using hfresh, stored, hstored, rfl⟩

/-- **Bank A commits** a row with its stale read, if the values fit. -/
theorem commitNaive_eq_ok_iff {db db' : Database} {trade : ParsedTrade} {readBalance : Cents} :
    commitNaive P naiveId db trade readBalance = .ok db' ↔
      CanOpen P db naiveId trade.account ∧
      storableAccount ⟨readBalance + trade.delta, some trade.description, some trade.executedAt⟩ =
        true ∧
      db' = db.withAccounts (db.ledgerAccounts.put (naiveId, trade.account)
        ⟨readBalance + trade.delta, some trade.description, some trade.executedAt⟩) := by
  simp only [commitNaive, writeNaive, bind_eq_ok_iff, ensureAccountRow_eq_ok_iff,
    storeAccount_eq_ok_iff]
  constructor
  · rintro ⟨_, ⟨hopen, rfl⟩, hstore, rfl⟩
    exact ⟨hopen, hstore, by rw [← Rows.modifyAt_insert]; rfl⟩
  · rintro ⟨hopen, hstore, rfl⟩
    exact ⟨_, ⟨hopen, rfl⟩, hstore, by rw [← Rows.modifyAt_insert]; rfl⟩

/-- A statement that puts one sound row leaves all of them sound. -/
theorem soundRow_of_put {db : Database} {k₀ : Uuid × PyStr} {row₀ : Account}
    (h : ∀ k row, db.ledgerAccounts.get? k = some row → SoundRow P projectId db k.2 row)
    (hrow : SoundRow P projectId db k₀.2 row₀) :
    ∀ k row, (db.ledgerAccounts.put k₀ row₀).get? k = some row → SoundRow P projectId db k.2 row := by
  intro k row hget
  rw [Rows.get?_put] at hget
  split at hget
  · next hk => exact hk ▸ Option.some.inj hget ▸ hrow
  · exact h k row hget

/-- Crediting a trade from the log keeps a row sound. -/
theorem soundRow_creditRow {db : Database} {trade : ParsedTrade} {row : Account}
    (h : ∀ t, row.statusAsOf = some t → ∃ trade', Accepted P projectId db trade' ∧
      trade'.account = trade.account ∧ trade'.executedAt = t)
    (htrade : Accepted P projectId db trade) (hstore : storableAccount (creditRow trade row) = true) :
    SoundRow P projectId db trade.account (creditRow trade row) := by
  have hfits : FitsBalance (creditRow trade row).balance := (of_decide_eq_true hstore).1
  refine ⟨hfits, fun t ht => ?_⟩
  unfold creditRow at ht
  dsimp only at ht
  split at ht
  · exact ⟨trade, htrade, rfl, Option.some.inj ht⟩
  · exact h t ht

/-- **Every step keeps the banks sound.** -/
theorem Sound.step {s s' : LogState} {a : LogAction} (h : Sound P projectId s)
    (hs : (system P maxBytes projectId naiveId safeId).step a s = some s') :
    Sound P projectId s' := by
  cases a with
  | publish eventId project createdAt payload =>
    obtain ⟨db, hdb, hs⟩ := Option.bind_eq_some_iff.1 hs
    obtain rfl := Option.some.inj hs
    obtain ⟨hfresh, stored, -, rfl⟩ := publish_eq_some hdb
    have hevents : ∀ e v, s.db.events.get? e = some v →
        (s.db.events.insert eventId ⟨project, tradeExecuted, stored, none, createdAt⟩).get? e =
          some v := by
      intro e v hv
      rw [Rows.get?_insert, if_neg ?_, hv]
      rintro rfl
      rw [hfresh] at hv
      cases hv
    exact ⟨fun k row hrow => (h.rows k row hrow).mono hevents,
      fun request trade balance hread => (h.reads request trade balance hread).mono hevents⟩
  | readNaive request eventId =>
    obtain ⟨trade, htrade, hs⟩ := Option.bind_eq_some_iff.1 hs
    obtain ⟨⟨balance, db⟩, -, hs⟩ := Option.bind_eq_some_iff.1 hs
    obtain rfl := Option.some.inj hs
    refine ⟨h.rows, fun request' trade' balance' hread => ?_⟩
    dsimp only at hread
    rw [Function.update_apply] at hread
    split at hread
    · obtain ⟨rfl, rfl⟩ := Prod.mk.inj (Option.some.inj hread)
      exact ⟨eventId, htrade⟩
    · exact h.reads request' trade' balance' hread
  | writeNaive request =>
    obtain ⟨⟨trade, balance⟩, hread, hs⟩ := Option.bind_eq_some_iff.1 hs
    obtain ⟨db, hdb, hs⟩ := Option.bind_eq_some_iff.1 hs
    obtain rfl := Option.some.inj hs
    obtain ⟨-, hstore, rfl⟩ := commitNaive_eq_ok_iff.1 (toOption_eq_some_iff.1 hdb)
    have htrade := h.reads request trade balance hread
    have hrow : SoundRow P projectId s.db trade.account
        ⟨balance + trade.delta, some trade.description, some trade.executedAt⟩ :=
      ⟨(of_decide_eq_true hstore).1, fun t ht => ⟨trade, htrade, rfl, Option.some.inj ht⟩⟩
    refine ⟨soundRow_of_put h.rows hrow, fun request' trade' balance' hread' => ?_⟩
    dsimp only at hread'
    rw [Function.update_apply] at hread'
    split at hread'
    · cases hread'
    · exact h.reads request' trade' balance' hread'
  | deliverSafe eventId =>
    obtain ⟨trade, htrade, hs⟩ := Option.bind_eq_some_iff.1 hs
    obtain ⟨⟨outcome, db⟩, hdb, hs⟩ := Option.bind_eq_some_iff.1 hs
    obtain rfl := Option.some.inj hs
    rw [toOption_eq_some_iff] at hdb
    rcases applyTradeSafe_cases P s.db safeId eventId trade with ⟨-, happly⟩ | ⟨-, happ, happly⟩ |
      ⟨-, -, e, happly⟩
    · obtain ⟨-, rfl⟩ := Prod.mk.inj (Except.ok.inj (happly.symm.trans hdb))
      exact h
    · obtain ⟨-, rfl⟩ := Prod.mk.inj (Except.ok.inj (happly.symm.trans hdb))
      refine ⟨soundRow_of_put h.rows (soundRow_creditRow ?_ ⟨eventId, htrade⟩ happ.storable),
        h.reads⟩
      intro t ht
      unfold accountRow at ht
      cases hget : s.db.ledgerAccounts.get? (safeId, trade.account) with
      | some row =>
        rw [hget] at ht
        exact (h.rows _ row hget).2 t ht
      | none =>
        rw [hget] at ht
        cases ht
    · rw [happly] at hdb
      cases hdb

/-- **In every reachable state the banks are sound.** -/
theorem sound_of_reachable {s : LogState}
    (h : (system P maxBytes projectId naiveId safeId).Reachable s) : Sound P projectId s :=
  h.invariant ⟨fun _ _ hrow => (nomatch hrow), fun _ _ _ hread => (nomatch hread)⟩
    fun _ _ _ hs hstep => hs.step hstep

/-! ## The meter -/

/-- The rows of one bank are readable beside an ordinary log. -/
theorem Sound.readable {s : LogState} (h : Sound P projectId s) (hlog : Ordinary P projectId s.db)
    (endpointId : Uuid) :
    Readable P (loggedTrades P s.db projectId) (ledgerRows s.db endpointId) := by
  have hrows : ∀ e ∈ ledgerRows s.db endpointId, SoundRow P projectId s.db e.1 e.2 := by
    intro e he
    obtain ⟨⟨k, row⟩, hmem, rfl⟩ := List.mem_map.1 he
    exact h.rows k row (Rows.get?_eq_some_iff.2 (Rows.mem_select.1 hmem).1)
  refine ⟨fun e he => ?_, fun account => ?_, fun e he hne w => ?_⟩
  · cases hat : e.2.statusAsOf with
    | none => rfl
    | some t =>
      obtain ⟨trade, htrade, -, rfl⟩ := (hrows e he).2 t hat
      exact hlog.loadable trade htrade
  · have hbalance : (balanceOf (ledgerRows s.db endpointId) account).natAbs < 10 ^ 18 := by
      cases hentry : (ledgerRows s.db endpointId).find? fun e => e.1 = account with
      | none => simp [balanceOf, findAccount?, hentry, startingBalance]
      | some e =>
        have hfits := (hrows e (List.mem_of_find?_eq_some hentry)).1
        simpa [balanceOf, findAccount?, hentry] using (show e.2.balance.natAbs < 10 ^ 18 from hfits)
    have hsum := hlog.sum account
    unfold precision at hsum ⊢
    rw [contextRound_eq_self (by unfold precision; omega)]
    omega
  · obtain ⟨t, ht⟩ := Option.ne_none_iff_exists'.1 hne
    obtain ⟨trade, htrade, haccount, -⟩ := (hrows e he).2 t ht
    exact haccount ▸ hlog.offset trade htrade w

/-- **The reconciliation meter returns** in every reachable state whose log is ordinary. -/
theorem meter_returns (P : Platform) (maxBytes : ℕ) (projectId naiveId safeId : Uuid) (s : LogState)
    (hs : (system P maxBytes projectId naiveId safeId).Reachable s)
    (hlog : Ordinary P projectId s.db) :
    ∃ v, meter P s.db projectId naiveId safeId = .ok v := by
  have hsound := sound_of_reachable hs
  refine meter_eq_ok_iff.2 ⟨⟨hlog.castable, fun account => ?_⟩, hsound.readable hlog naiveId,
    hsound.readable hlog safeId⟩
  have hsum := hlog.sum account
  unfold precision startingBalance at hsum
  unfold precision
  omega

end Sound

/-- A project and its banks. -/
def oneProject : Machine LogState LogAction :=
  system .ascii 262144 (.ofNat 1) (.ofNat 2) (.ofNat 3)

/-- An event is published and reaches both banks. -/
def delivered (eventId : ℕ) (payload : JsonObject) : List LogAction :=
  [.publish (.ofNat eventId) (.ofNat 1) .epoch payload, .readNaive 0 (.ofNat eventId),
    .deliverSafe (.ofNat eventId), .writeNaive 0]

/-- Two purchases and a sale, in two accounts. -/
theorem meter_returns_three_trades : ∃ s : LogState, s.db.ledgerAccounts.entries.length = 4 ∧
    ∃ v, meter .ascii s.db (.ofNat 1) (.ofNat 2) (.ofNat 3) = .ok v := by
  obtain ⟨s, hs, hp⟩ := oneProject.exists_reachable_of_run (fun _ _ => True)
    (l := delivered 4 (aliceTrade "buy" "5.00") ++
      delivered 5 (tradePayload "alice" "sell" "2.50" "2024-01-01T00:00:01+00:00") ++
      delivered 6 (tradePayload "bob" "buy" "1.00" "2024-01-01T00:00:02+00:00"))
    (p := fun s => s.db.ledgerAccounts.entries.length = 4 ∧ Ordinary .ascii (.ofNat 1) s.db)
    (fun _ _ _ => trivial) (by decide +kernel)
  obtain ⟨hrows, hlog⟩ := of_decide_eq_true hp
  exact ⟨s, hrows, meter_returns .ascii 262144 (.ofNat 1) (.ofNat 2) (.ofNat 3) s hs hlog⟩

/-- An amount of `10 ^ 26` dollars is a numeral to the query, and too long for `quantize`. -/
theorem not_meter_returns : ¬ ∀ (P : Platform) (maxBytes : ℕ) (projectId naiveId safeId : Uuid)
    (s : LogState), (system P maxBytes projectId naiveId safeId).Reachable s →
      ∃ v, meter P s.db projectId naiveId safeId = .ok v := by
  intro hall
  obtain ⟨s, hs, hp⟩ := oneProject.exists_reachable_of_run (fun _ _ => True)
    (l := [.publish (.ofNat 4) (.ofNat 1) .epoch (aliceTrade "buy" "100000000000000000000000000")])
    (p := fun s => 10 ^ precision ≤ (sumCents (groupOf (loggedTrades .ascii s.db (.ofNat 1))
      (ofString "alice"))).natAbs) (fun _ _ _ => trivial) (by decide +kernel)
  have hsummable := (meter_eq_ok_iff.1 (hall _ _ _ (.ofNat 2) (.ofNat 3) s hs)).1
  exact absurd (hsummable.sum (ofString "alice")) (not_lt.2 (of_decide_eq_true hp))

end Hookit.Ledger
