import Hookit.Ledger.Drift
import Mathlib.Data.Set.Finite.Lemmas
import Mathlib.Data.Set.Finite.List

/-!
# Which accounts are marked as outdated

`TellsStale` is what the mark is meant to say: the latest time of an account is the latest of its
logged trades' times, and the account is marked exactly when a trade that a bank can apply is later
than the status that the bank shows. The query takes the maximum of the times as text, and only its
result is read as a time.

`tellsStale_iff`, with text compared code point by code point: the mark says this exactly when the
greatest text is also the latest time and the time of a trade that a bank can apply, or there is no
time to read. An offset from UTC is enough to break it (`not_tellsStale`).
-/

namespace Hookit.Ledger

open Foundations Foundations.PyStr Foundations.PyDecimal Bank

section Definitions

variable (P : Platform)

/-- `MAX` takes the greatest string in code-point order. -/
def CodePointOrder : Prop := ∀ s t, P.maxText s t = max s t

/-- The payloads of the trades that the query counts for the account. -/
def countedTrades (db : Database) (projectId : Uuid) (account : PyStr) : List JsonObject :=
  ((tradeEvents projectId db).map fun e => e.2.payload.1).filter fun payload =>
    (loggedTrade? P payload).any fun t => t.account = account

/-- The time of the trade, if `parse_trade` accepts it. -/
def acceptedTime (payload : JsonObject) : Option Time :=
  match parseExecutedAt P payload with
  | some (.aware t) => some (time t)
  | _ => none

/-- The time of the trade, if a bank can apply it. -/
def appliedTime (payload : JsonObject) : Option Time :=
  (trade? P payload).map ParsedTrade.executedAt

/-- `payload->>'executed_at'` of the trades. -/
def writtenTimes (payloads : List JsonObject) : List PyStr :=
  payloads.filterMap fun payload => textField P payload "executed_at"

/-- It is the latest of the times, or there are none. -/
def IsLatest (times : List Time) : Option Datetime → Prop
  | some (.aware t) => IsGreatest {u | u ∈ times} (time t)
  | some (.naive _) => False
  | none => times = []

/-- `latest_executed_at` of the account. -/
def latestOf (expected : List (PyStr × ExpectedAccount)) (account : PyStr) : Option Datetime :=
  (findAccount? expected account).bind ExpectedAccount.latestExecutedAt

/-- A trade that a bank can apply is later than the status. -/
def Outdated (payloads : List JsonObject) (statusAsOf : Option Time) : Prop :=
  ∃ s ∈ statusAsOf, ∃ t ∈ payloads.filterMap (appliedTime P), s < t

/-- What `latest_executed_at` and the mark are meant to say of an account. -/
structure TellsStale (payloads : List JsonObject) (expected : List (PyStr × ExpectedAccount))
    (account : PyStr) : Prop where
  latest : IsLatest (payloads.filterMap (acceptedTime P)) (latestOf expected account)
  stale (statusAsOf : Option Time) : ∃ stale, statusStale statusAsOf (latestOf expected account) =
    .ok stale ∧ (stale = true ↔ Outdated P payloads statusAsOf)
  view (db : Database) (endpointId : Uuid) (view : BankView) :
    buildBankView P db endpointId expected = .ok view → ∀ a ∈ view.accounts, a.account = account →
      (a.statusStale = true ↔ Outdated P payloads a.statusAsOf)

/-- The greatest text and the latest time agree. -/
def OrderAgrees (payloads : List JsonObject) : Prop :=
  (∃ text t, IsGreatest {s | s ∈ writtenTimes P payloads} text ∧ text ≠ [] ∧
    fromIsoformat P.otherIso text = some (.aware t) ∧
    IsGreatest {u | u ∈ payloads.filterMap (acceptedTime P)} (time t) ∧
    time t ∈ payloads.filterMap (appliedTime P)) ∨
  (payloads.filterMap (acceptedTime P) = [] ∧
    ∀ text, IsGreatest {s | s ∈ writtenTimes P payloads} text →
      text = [] ∨ fromIsoformat P.otherIso text = none)

end Definitions

variable {P : Platform}

/-! ## The greatest text -/

theorem isGreatest_foldl (hP : CodePointOrder P) (rest : List PyStr) (text : PyStr) :
    IsGreatest {s | s ∈ text :: rest} (rest.foldl P.maxText text) := by
  refine ⟨foldl_maxText_mem P rest text, ?_⟩
  induction rest generalizing text with
  | nil => simp [upperBounds]
  | cons text' rest ih =>
    have hmax : max text text' ≤ rest.foldl P.maxText (P.maxText text text') := by
      rw [← hP]
      exact ih (P.maxText text text') List.mem_cons_self
    intro s hs
    rcases List.mem_cons.1 hs with rfl | hs
    · exact (le_max_left _ _).trans hmax
    · rcases List.mem_cons.1 hs with rfl | hs
      · exact (le_max_right _ _).trans hmax
      · exact ih (P.maxText text text') (List.mem_cons_of_mem _ hs)

/-- What `MAX` returns. -/
theorem latestRaw_eq_some_iff (hP : CodePointOrder P) {group : List LoggedTrade} {raw : PyStr} :
    latestRaw P group = some raw ↔
      IsGreatest {s | s ∈ group.filterMap LoggedTrade.executedAt} raw := by
  unfold latestRaw
  split
  · next hnil =>
    rw [hnil]
    simp [IsGreatest]
  · next text rest hcons =>
    rw [hcons, Option.some_inj]
    constructor
    · rintro rfl
      exact isGreatest_foldl hP rest text
    · intro h
      exact (isGreatest_foldl hP rest text).unique h

theorem latest_eq_some_iff (hP : CodePointOrder P) {group : List LoggedTrade} {d : Datetime} :
    latest P group = some d ↔ ∃ raw,
      IsGreatest {s | s ∈ group.filterMap LoggedTrade.executedAt} raw ∧ raw ≠ [] ∧
        fromIsoformat P.otherIso raw = some d := by
  simp only [latest, Option.bind_eq_some_iff, latestRaw_eq_some_iff hP]
  refine exists_congr fun raw => and_congr_right fun _ => ?_
  split_ifs with hnil
  · simp [hnil]
  · simp [hnil]

theorem latest_eq_none_iff (hP : CodePointOrder P) {group : List LoggedTrade} :
    latest P group = none ↔
      ∀ raw, IsGreatest {s | s ∈ group.filterMap LoggedTrade.executedAt} raw →
        raw = [] ∨ fromIsoformat P.otherIso raw = none := by
  rw [Option.eq_none_iff_forall_ne_some]
  simp only [ne_eq, latest_eq_some_iff hP]
  constructor
  · intro h raw hraw
    by_contra hne
    rw [not_or] at hne
    obtain ⟨d, hd⟩ := Option.ne_none_iff_exists'.1 hne.2
    exact h d ⟨raw, hraw, hne.1, hd⟩
  · rintro h d ⟨raw, hraw, hne, hd⟩
    rcases h raw hraw with hnil | hnone
    · exact hne hnil
    · rw [hd] at hnone
      cases hnone

/-- The texts of the trades that are grouped are those of the payloads. -/
theorem filterMap_executedAt (db : Database) (projectId : Uuid) (account : PyStr) :
    (groupOf (loggedTrades P db projectId) account).filterMap LoggedTrade.executedAt =
      writtenTimes P (countedTrades P db projectId account) := by
  rw [loggedTrades, ← tradeEvents, groupOf, writtenTimes, countedTrades]
  induction tradeEvents projectId db with
  | nil => rfl
  | cons e events ih =>
    rw [List.map_cons]
    cases hlogged : loggedTrade? P e.2.payload.1 with
    | none =>
      simp only [List.filterMap_cons, hlogged]
      rw [List.filter_cons_of_neg (by simp [hlogged]), ih]
    | some t =>
      have hwritten : t.executedAt = textField P e.2.payload.1 "executed_at" :=
        (loggedTrade?_eq_some_iff.1 hlogged).2.2.2
      simp only [List.filterMap_cons, hlogged]
      by_cases haccount : t.account = account
      · rw [List.filter_cons_of_pos (by simp [haccount]),
          List.filter_cons_of_pos (by simp [hlogged, haccount]), List.filterMap_cons,
          List.filterMap_cons, hwritten, ih]
      · rw [List.filter_cons_of_neg (by simp [haccount]),
          List.filter_cons_of_neg (by simp [hlogged, haccount]), ih]

theorem latestOf_expectedOf (trades : List LoggedTrade) (account : PyStr) :
    latestOf (expectedOf P trades) account = latest P (groupOf trades account) := by
  rw [latestOf, findAccount?_expectedOf]
  split
  · rfl
  · next h =>
    rw [groupOf_eq_nil h]
    rfl

/-! ## The times -/

section Times

variable {payloads : List JsonObject}

/-- A bank applies only trades whose time is accepted. -/
theorem acceptedTime_of_appliedTime {payload : JsonObject} {t : Time}
    (h : appliedTime P payload = some t) : acceptedTime P payload = some t := by
  obtain ⟨trade, htrade, rfl⟩ := Option.map_eq_some_iff.1 h
  obtain ⟨account, side, negative, cents, executedAt, hlike, rfl⟩ := trade?_eq_some_iff.1 htrade
  rw [acceptedTime, parseExecutedAt, hlike.has_time]
  rfl

theorem mem_accepted_of_mem_applied {t : Time} (h : t ∈ payloads.filterMap (appliedTime P)) :
    t ∈ payloads.filterMap (acceptedTime P) := by
  obtain ⟨payload, hpayload, ht⟩ := List.mem_filterMap.1 h
  exact List.mem_filterMap.2 ⟨payload, hpayload, acceptedTime_of_appliedTime ht⟩

/-- There is a latest time, if there is a time. -/
theorem exists_isGreatest {times : List Time} (h : times ≠ []) :
    ∃ t, IsGreatest {u | u ∈ times} t := by
  obtain ⟨u, hu⟩ := List.exists_mem_of_ne_nil times h
  obtain ⟨t, ht, hmax⟩ := Set.exists_max_image {u | u ∈ times} id (List.finite_toSet times) ⟨u, hu⟩
  exact ⟨t, ht, hmax⟩

/-- Every status is marked as it should be exactly when the latest time is that of a trade that a
bank can apply. -/
theorem outdated_iff {t : Time} (hmax : ∀ u ∈ payloads.filterMap (acceptedTime P), u ≤ t)
    (ht : t ∈ payloads.filterMap (appliedTime P)) (s : Time) :
    Outdated P payloads (some s) ↔ s < t := by
  constructor
  · rintro ⟨_, ⟨⟩, u, hu, hlt⟩
    exact hlt.trans_le (hmax u (mem_accepted_of_mem_applied hu))
  · intro hlt
    exact ⟨s, rfl, t, ht, hlt⟩

/-- A mark that is right for every status is made by a trade that a bank can apply. -/
theorem mem_applied_of_outdated {t : Time} (h : ∀ s, s < t ↔ Outdated P payloads (some s))
    (hmax : ∀ u ∈ payloads.filterMap (acceptedTime P), u ≤ t) :
    t ∈ payloads.filterMap (appliedTime P) := by
  -- a status just before `t` is outdated
  obtain ⟨_, -, u, hu, -⟩ := (h (t - 1)).1 (sub_one_lt t)
  obtain ⟨v, hv, hvmax⟩ := exists_isGreatest (List.ne_nil_of_mem hu)
  -- and the status of the latest trade is not
  have hle : t ≤ v := by
    by_contra! hlt
    obtain ⟨_, ⟨⟩, w, hw, hvw⟩ := (h v).1 hlt
    exact absurd (hvmax hw) (not_le_of_gt hvw)
  rw [le_antisymm hle (hmax v (mem_accepted_of_mem_applied hv))]
  exact hv

end Times

/-- The mark of an account in a bank's view. -/
theorem statusStale_of_buildBankView {db : Database} {endpointId : Uuid}
    {expected : List (PyStr × ExpectedAccount)} {view : BankView}
    (h : buildBankView P db endpointId expected = .ok view) {a : AccountView}
    (ha : a ∈ view.accounts) :
    statusStale a.statusAsOf (latestOf expected a.account) = .ok a.statusStale := by
  unfold buildBankView at h
  dsimp only at h
  split at h
  · simp only [bind_eq_ok_iff, pure_eq_ok_iff] at h
    obtain ⟨accounts, haccounts, rfl⟩ := h
    obtain ⟨account, -, hview⟩ := exists_of_mem_mapM haccounts ha
    simp only [accountView, bind_eq_ok_iff, pure_eq_ok_iff] at hview
    obtain ⟨d, -, stale, hstale, rfl⟩ := hview
    exact hstale
  · cases h

/-! ## The mark -/

/-- **Which accounts are marked.** -/
theorem tellsStale_iff (hP : CodePointOrder P) {db : Database} {projectId : Uuid}
    {expected : List (PyStr × ExpectedAccount)}
    (h : expectedFromEventLog P db projectId = .ok expected) (account : PyStr) :
    TellsStale P (countedTrades P db projectId account) expected account ↔
      OrderAgrees P (countedTrades P db projectId account) := by
  obtain ⟨-, rfl⟩ := expectedFromEventLog_eq_ok_iff.1 h
  have hlatest : latestOf (expectedOf P (loggedTrades P db projectId)) account =
      latest P (groupOf (loggedTrades P db projectId) account) := latestOf_expectedOf _ _
  have hsome := @latest_eq_some_iff P hP (groupOf (loggedTrades P db projectId) account)
  have hnone := @latest_eq_none_iff P hP (groupOf (loggedTrades P db projectId) account)
  rw [filterMap_executedAt] at hsome hnone
  rw [← hlatest] at hsome hnone
  generalize expectedOf P (loggedTrades P db projectId) = expected at *
  generalize countedTrades P db projectId account = payloads at *
  constructor
  · intro htells
    have hmax := htells.latest
    cases hval : latestOf expected account with
    | none =>
      rw [hval] at hmax
      exact .inr ⟨hmax, hnone.1 hval⟩
    | some d =>
      rw [hval] at hmax
      cases d with
      | naive w => exact absurd hmax id
      | aware t =>
        obtain ⟨text, htext, hne, hread⟩ := hsome.1 hval
        refine .inl ⟨text, t, htext, hne, hread, hmax, mem_applied_of_outdated (fun s => ?_) hmax.2⟩
        obtain ⟨stale, hstale, hiff⟩ := htells.stale (some s)
        rw [hval] at hstale
        obtain rfl := Except.ok.inj hstale
        rw [← hiff, decide_eq_true_iff]
  · intro hagrees
    have hmain : IsLatest (payloads.filterMap (acceptedTime P)) (latestOf expected account) ∧
        ∀ statusAsOf, ∃ stale, statusStale statusAsOf (latestOf expected account) = .ok stale ∧
          (stale = true ↔ Outdated P payloads statusAsOf) := by
      rcases hagrees with ⟨text, t, htext, hne, hread, hmax, happlied⟩ | ⟨hnil, hread⟩
      · rw [hsome.2 ⟨text, htext, hne, hread⟩]
        refine ⟨hmax, fun statusAsOf => ?_⟩
        cases statusAsOf with
        | none => exact ⟨false, rfl, by simp [Outdated]⟩
        | some s =>
          refine ⟨decide (s < time t), rfl, ?_⟩
          rw [decide_eq_true_iff, outdated_iff hmax.2 happlied]
      · rw [hnone.2 hread]
        have hnot : ∀ statusAsOf, ¬ Outdated P payloads statusAsOf := by
          rintro statusAsOf ⟨s, -, t, ht, -⟩
          have := mem_accepted_of_mem_applied ht
          rw [hnil] at this
          cases this
        refine ⟨hnil, fun statusAsOf => ⟨false, ?_, by simp [hnot statusAsOf]⟩⟩
        cases statusAsOf <;> rfl
    refine ⟨hmain.1, hmain.2, fun db' endpointId view hview a ha haccount => ?_⟩
    have hstale := statusStale_of_buildBankView hview ha
    obtain ⟨stale, hok, hiff⟩ := hmain.2 a.statusAsOf
    rw [haccount, hok] at hstale
    rw [← Except.ok.inj hstale, hiff]

theorem codePointOrder_ascii : CodePointOrder .ascii := fun s t => (max_def s t).symm

/-- Alice has bought and then sold, and Bob has bought after it. -/
theorem tellsStale_threeTrades : ∃ expected,
    expectedFromEventLog .ascii threeTrades (.ofNat 1) = .ok expected ∧
      TellsStale .ascii (countedTrades .ascii threeTrades (.ofNat 1) (ofString "alice"))
        expected (ofString "alice") := by
  have hcounted : countedTrades .ascii threeTrades (.ofNat 1) (ofString "alice") =
      [purchase.1, sale.1] := by
    have hpayloads : (tradeEvents (.ofNat 1) threeTrades).map (fun e => e.2.payload.1) =
        [purchase.1, sale.1, bobPurchase.1] := rfl
    rw [countedTrades, hpayloads, List.filter_cons, plain_purchase.loggedTrade?, List.filter_cons,
      plain_sale.loggedTrade?, List.filter_cons, plain_bobPurchase.loggedTrade?]
    rfl
  have hpurchase : appliedTime .ascii purchase.1 = some (time (atMidnight 0)) := by
    rw [appliedTime, plain_purchase.trade?]
    rfl
  have hsale : appliedTime .ascii sale.1 = some (time (atMidnight 1)) := by
    rw [appliedTime, plain_sale.trade?]
    rfl
  have hlt : time (atMidnight 0) < time (atMidnight 1) := by decide +kernel
  obtain ⟨expected, hexpected⟩ : ∃ expected,
      expectedFromEventLog .ascii threeTrades (.ofNat 1) = .ok expected :=
    ⟨_, expectedFromEventLog_eq_ok_iff.2 ⟨reconcilable_threeTrades.summable, rfl⟩⟩
  refine ⟨expected, hexpected,
    (tellsStale_iff codePointOrder_ascii hexpected (ofString "alice")).2 (.inl ?_)⟩
  rw [hcounted]
  refine ⟨ofString "2024-01-01T00:00:01+00:00", atMidnight 1, ?_, by decide, plain_sale.has_time,
    ?_, ?_⟩
  · rw [writtenTimes, List.filterMap_cons, textField_str plain_purchase.has_written,
      List.filterMap_cons, textField_str plain_sale.has_written]
    have htext : ofString "2024-01-01T00:00:00+00:00" ≤ ofString "2024-01-01T00:00:01+00:00" := by
      decide +kernel
    simpa [IsGreatest, upperBounds] using htext
  · rw [List.filterMap_cons, acceptedTime_of_appliedTime hpurchase, List.filterMap_cons,
      acceptedTime_of_appliedTime hsale]
    simpa [IsGreatest, upperBounds] using hlt.le
  · rw [List.filterMap_cons, hpurchase, List.filterMap_cons, hsale]
    simp

/-- A trade at the given time. -/
def timedTrade (executedAt : String) : JsonObject := tradePayload "alice" "buy" "5.00" executedAt

/-- Two trades. The text of the earlier one, at 07:00 UTC, is the greater. -/
def offsets : Database :=
  Database.empty.withEvents
    ((Rows.empty.insert (.ofNat 4)
      ⟨.ofNat 1, tradeExecuted, ⟨timedTrade "2024-01-01T12:00:00+05:00",
        timedTrade "2024-01-01T12:00:00+05:00", rfl⟩, none, .epoch⟩).insert (.ofNat 5)
      ⟨.ofNat 1, tradeExecuted, ⟨timedTrade "2024-01-01T08:00:00+00:00",
        timedTrade "2024-01-01T08:00:00+00:00", rfl⟩, none, .epoch⟩)

/-- A logged trade of `alice` is later than the time that the query gives. -/
def missesLatest (expected : List (PyStr × ExpectedAccount)) : Bool :=
  match latestOf expected (ofString "alice") with
  | some (.aware t) =>
    ((countedTrades .ascii offsets (.ofNat 1) (ofString "alice")).filterMap
      (acceptedTime .ascii)).any fun u => decide (time t < u)
  | _ => false

/-- **The greatest text need not be the latest time.** -/
theorem not_tellsStale : ¬ ∀ (P : Platform) (db : Database) (projectId : Uuid)
    (expected : List (PyStr × ExpectedAccount)) (account : PyStr), CodePointOrder P →
    expectedFromEventLog P db projectId = .ok expected →
      TellsStale P (countedTrades P db projectId account) expected account := by
  intro hall
  have hrun : (expectedFromEventLog .ascii offsets (.ofNat 1)).toOption.map missesLatest =
      some true := by
    decide +kernel
  obtain ⟨expected, hexpected, hlater⟩ := Option.map_eq_some_iff.1 hrun
  rw [toOption_eq_some_iff] at hexpected
  have hlatest := (hall .ascii offsets (.ofNat 1) expected (ofString "alice") codePointOrder_ascii
    hexpected).latest
  unfold missesLatest at hlater
  split at hlater
  · next t hval =>
    rw [hval] at hlatest
    obtain ⟨u, hu, hlt⟩ := List.any_eq_true.1 hlater
    exact absurd (hlatest.2 hu) (not_le_of_gt (of_decide_eq_true hlt))
  · cases hlater

end Hookit.Ledger
