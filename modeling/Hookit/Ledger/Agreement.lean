import Hookit.Ledger.Trade

/-!
# One payload, read twice

What the query counts of a payload (`countedSql?`) and what a bank counts of it (`countedBank?`):
an account and a signed number of cents, or nothing.

The banks accept what is `TradeLike` (`trade?_eq_some_iff`). Of a `Plain` trade both sides count the
same (`Plain.counted`), and a payload of which both count the same, something, is plain as far as
the two of them look (`plain_of_counted`).
-/

namespace Hookit.Ledger

open Foundations Foundations.PyStr Foundations.PyDecimal Bank

section Definitions

variable (P : Platform) (payload : JsonObject)

/-- What the query adds to an account's sum, in cents. -/
def countedSql? : Option (PyStr × ℚ) :=
  (loggedTrade? P payload).map fun t => (t.account, t.amount * 100)

/-- What a bank adds to an account's balance, in cents. -/
def countedBank? : Option (PyStr × ℚ) := (trade? P payload).map fun t => (t.account, (t.delta : ℚ))

/-- The fields say a trade, in the spellings that a bank understands. -/
structure TradeLike (account side : PyStr) (negative : Bool) (cents : ℕ) (executedAt : Aware) :
    Prop where
  has_account : Json.get payload (ofString "account") = some (.str account)
  account_ne : account ≠ []
  has_side : Json.get payload (ofString "side") = some (.str side)
  buy_or_sell : side = ofString "buy" ∨ side = ofString "sell"
  has_amount : (decimal? (strField P payload "amount")).bind quantizeCents = some (.cents negative cents)
  nonneg : negative = true → cents = 0
  has_time : fromIsoformat P.otherIso (strField P payload "executed_at") = some (.aware executedAt)

/-- The fields say a trade whose amount is `NaN`. -/
structure NanTrade (account side : PyStr) (executedAt : Datetime) : Prop where
  has_account : Json.get payload (ofString "account") = some (.str account)
  account_ne : account ≠ []
  has_side : Json.get payload (ofString "side") = some (.str side)
  buy_or_sell : side = ofString "buy" ∨ side = ofString "sell"
  has_amount : (decimal? (strField P payload "amount")).bind quantizeCents = some .nan
  has_time : fromIsoformat P.otherIso (strField P payload "executed_at") = some executedAt

/-- The fields say a trade in the spelling that both sides understand: a named account, one of the
two sides, an amount in digits that is a whole number of cents, and a time with an offset; and the
columns of Bank B take the account and the time. -/
structure Plain (account side : PyStr) (whole fraction : List ℕ) (cents : ℕ) (written : PyStr)
    (executedAt : Aware) : Prop where
  has_account : Json.get payload (ofString "account") = some (.str account)
  account_ne : account ≠ []
  indexable : P.indexable account = true
  has_side : Json.get payload (ofString "side") = some (.str side)
  buy_or_sell : side = ofString "buy" ∨ side = ofString "sell"
  has_amount : (textField P payload "amount").bind plainNumeral? = some (whole, fraction)
  whole_cents : numeralValue whole fraction * 100 = cents
  bound : cents < 10 ^ precision
  numeric : (whole.dropWhile (· = 0)).length ≤ 131072 ∧ fraction.length ≤ 16383
  has_written : Json.get payload (ofString "executed_at") = some (.str written)
  has_time : fromIsoformat P.otherIso written = some (.aware executedAt)
  loadable : P.loadable (time executedAt) = true

/-- The trade that a bank makes of the fields. -/
def tradeOf (account side : PyStr) (negative : Bool) (cents : ℕ) (executedAt : Aware) :
    ParsedTrade where
  account
  delta := if side = ofString "buy" then cents else -cents
  executedAt := time executedAt
  description := description P payload side negative cents

end Definitions

variable {P : Platform} {payload : JsonObject}

/-- **The banks accept what looks like a trade.** -/
theorem trade?_eq_some_iff {trade : ParsedTrade} : trade? P payload = some trade ↔
    ∃ account side negative cents executedAt,
      TradeLike P payload account side negative cents executedAt ∧
        trade = tradeOf P payload account side negative cents executedAt := by
  have hparse : trade? P payload = some trade ↔ parseTrade P payload = .ok (some trade) := by
    rw [trade?, Option.join_eq_some_iff, toOption_eq_some_iff]
  rw [hparse]
  constructor
  · intro h
    unfold parseTrade at h
    split at h
    · next account side haccount hside =>
      split at h
      · cases h
      · next hcond =>
        rw [not_or, not_and_or, not_not, not_not] at hcond
        split at h
        · cases h
        · next negative cents executedAt hamount hexecuted =>
          split at h
          · cases h
          · next hneg =>
            obtain rfl := Option.some.inj (Except.ok.inj h)
            rw [not_and, not_not] at hneg
            exact ⟨account, side, negative, cents, executedAt,
              ⟨haccount, hcond.1, hside, hcond.2, hamount, hneg, hexecuted⟩, rfl⟩
        · cases h
        · cases h
    · cases h
  · rintro ⟨account, side, negative, cents, executedAt, h, rfl⟩
    have hcond : ¬ (account = [] ∨ (side ≠ ofString "buy" ∧ side ≠ ofString "sell")) := by
      rw [not_or, not_and_or, not_not, not_not]
      exact ⟨h.account_ne, h.buy_or_sell⟩
    have hneg : ¬ (negative = true ∧ cents ≠ 0) := by
      rw [not_and, not_not]
      exact h.nonneg
    have hamount : parseAmount P payload = some (.cents negative cents) := h.has_amount
    have hexecuted : parseExecutedAt P payload = some (.aware executedAt) := h.has_time
    simp only [parseTrade, h.has_account, h.has_side, if_neg hcond, hamount, hexecuted, if_neg hneg]
    rfl

/-- **`parse_trade` returns** unless it compares a `NaN`. -/
theorem exists_parseTrade_iff : (∃ trade, parseTrade P payload = .ok trade) ↔
    ∀ account side executedAt, ¬ NanTrade P payload account side executedAt := by
  constructor
  · rintro ⟨trade, h⟩ account side executedAt hnan
    have hcond : ¬ (account = [] ∨ (side ≠ ofString "buy" ∧ side ≠ ofString "sell")) := by
      rw [not_or, not_and_or, not_not, not_not]
      exact ⟨hnan.account_ne, hnan.buy_or_sell⟩
    have hamount : parseAmount P payload = some .nan := hnan.has_amount
    have htime : parseExecutedAt P payload = some executedAt := hnan.has_time
    simp [parseTrade, hnan.has_account, hnan.has_side, hcond, hamount, htime] at h
  · intro hnan
    unfold parseTrade
    split
    · next account side haccount hside =>
      split
      · exact ⟨_, rfl⟩
      · next hcond =>
        rw [not_or, not_and_or, not_not, not_not] at hcond
        split
        · next executedAt hamount htime =>
          exact absurd ⟨haccount, hcond.1, hside, hcond.2, hamount, htime⟩ (hnan account side executedAt)
        · split <;> exact ⟨_, rfl⟩
        · exact ⟨_, rfl⟩
        · exact ⟨_, rfl⟩
    · exact ⟨_, rfl⟩

theorem cents_lt_of_quantizeCents {x : PyDecimal} {negative : Bool} {cents : ℕ}
    (h : quantizeCents x = some (.cents negative cents)) : cents < 10 ^ precision := by
  cases x with
  | finite negative' coefficient exponent =>
    simp only [quantizeCents] at h
    split at h
    · next hlt =>
      obtain ⟨-, rfl⟩ := Quantized.cents.inj (Option.some.inj h)
      exact hlt
    · cases h
  | infinity negative' => cases h
  | nan signalling => cases signalling <;> cases h

/-- What the query reads of a payload. -/
theorem loggedTrade?_eq_some_iff {t : LoggedTrade} : loggedTrade? P payload = some t ↔
    textField P payload "account" = some t.account ∧
    (textField P payload "amount").bind plainNumeral? = some (t.whole, t.fraction) ∧
    t.sells = decide (textField P payload "side" = some (ofString "sell")) ∧
    t.executedAt = textField P payload "executed_at" := by
  simp only [loggedTrade?, bind, Option.bind_eq_some_iff, pure, Option.some.injEq]
  constructor
  · rintro ⟨account, haccount, text, htext, ⟨whole, fraction⟩, hnumeral, rfl⟩
    exact ⟨haccount, ⟨text, htext, hnumeral⟩, rfl, rfl⟩
  · rintro ⟨haccount, ⟨text, htext, hnumeral⟩, hsells, hexecuted⟩
    refine ⟨t.account, haccount, text, htext, (t.whole, t.fraction), hnumeral, ?_⟩
    rw [← hsells, ← hexecuted]

theorem textField_str {key : String} {s : PyStr}
    (h : Json.get payload (ofString key) = some (.str s)) : textField P payload key = some s := by
  rw [textField, h]
  rfl

theorem strField_str {key : String} {s : PyStr}
    (h : Json.get payload (ofString key) = some (.str s)) : strField P payload key = s := by
  rw [strField, h]
  rfl

/-! ## Plain trades -/

section Plain

variable {p : Json.StoredObject} {account side written : PyStr} {whole fraction : List ℕ} {cents : ℕ}
  {executedAt : Aware}

/-- What the query reads of a plain trade. -/
def plainLogged (account side : PyStr) (whole fraction : List ℕ) (written : PyStr) : LoggedTrade where
  account
  whole
  fraction
  sells := side = ofString "sell"
  executedAt := some written

theorem Plain.loggedTrade? (h : Plain P p.1 account side whole fraction cents written executedAt) :
    loggedTrade? P p.1 = some (plainLogged account side whole fraction written) := by
  refine loggedTrade?_eq_some_iff.2 ⟨textField_str h.has_account, h.has_amount, ?_,
    (textField_str h.has_written).symm⟩
  rw [textField_str h.has_side]
  simp [plainLogged]

/-- The amount is a numeral to Python as well. -/
theorem Plain.tradeLike (h : Plain P p.1 account side whole fraction cents written executedAt) :
    TradeLike P p.1 account side false cents executedAt := by
  refine ⟨h.has_account, h.account_ne, h.has_side, h.buy_or_sell, ?_, by simp, ?_⟩
  · obtain ⟨text, htext, hnumeral⟩ := Option.bind_eq_some_iff.1 h.has_amount
    obtain ⟨x, hx, htext⟩ := Option.bind_eq_some_iff.1 htext
    have hstr : strField P p.1 "amount" = text := by
      rw [strField, hx]
      exact Json.toStr_of_jsonText _ (p.stored_of_get hx) htext P.plainNumeral?_composite hnumeral
        h.whole_cents
    obtain ⟨rfl, hne, hwhole, hfraction⟩ := plainNumeral?_eq_some hnumeral
    rw [hstr]
    exact decimal?_bind_quantizeCents hwhole hfraction hne h.whole_cents h.bound
      (h.numeric.2.trans (by norm_num))
  · rw [strField_str h.has_written]
    exact h.has_time

theorem Plain.trade? (h : Plain P p.1 account side whole fraction cents written executedAt) :
    trade? P p.1 = some (tradeOf P p.1 account side false cents executedAt) :=
  trade?_eq_some_iff.2 ⟨account, side, false, cents, executedAt, h.tradeLike, rfl⟩

/-- The signed cents that the query and the bank make of the two sides. -/
theorem amount_eq_delta {negative : Bool} (hside : side = ofString "buy" ∨ side = ofString "sell") :
    (plainLogged account side whole fraction written).amount * 100 =
        ((tradeOf P payload account side negative cents executedAt).delta : ℚ) ↔
      numeralValue whole fraction * 100 = cents := by
  have hne : ofString "sell" ≠ ofString "buy" ∧ ofString "buy" ≠ ofString "sell" := by decide
  rcases hside with rfl | rfl
  · simp [LoggedTrade.amount, plainLogged, tradeOf, hne.2]
  · simp [LoggedTrade.amount, plainLogged, tradeOf, hne.1]

/-- **Of a plain trade both sides count the same.** -/
theorem Plain.counted (h : Plain P p.1 account side whole fraction cents written executedAt) :
    countedSql? P p.1 = countedBank? P p.1 := by
  rw [countedSql?, countedBank?, h.loggedTrade?, h.trade?, Option.map_some, Option.map_some,
    (amount_eq_delta h.buy_or_sell).2 h.whole_cents]
  rfl

end Plain

/-- **If both sides count the same**, the trade is plain as far as they look. -/
theorem plain_of_counted {p : Json.StoredObject} {t : LoggedTrade} {trade : ParsedTrade}
    (heq : countedSql? P p.1 = countedBank? P p.1) (hlogged : loggedTrade? P p.1 = some t)
    (htrade : trade? P p.1 = some trade) (hcast : t.castable = true)
    (hindex : P.indexable trade.account = true) (hload : P.loadable trade.executedAt = true) :
    ∃ account side whole fraction cents written executedAt,
      Plain P p.1 account side whole fraction cents written executedAt := by
  obtain ⟨account, side, negative, cents, executedAt, h, rfl⟩ := trade?_eq_some_iff.1 htrade
  obtain ⟨haccount, hamount, hsells, hexecuted⟩ := loggedTrade?_eq_some_iff.1 hlogged
  obtain ⟨written, hwritten⟩ := exists_str_of_fromIsoformat (x := (Json.get p.1 _).getD .null)
    h.has_time
  have hget : Json.get p.1 (ofString "executed_at") = some (.str written) := by
    cases hget : Json.get p.1 (ofString "executed_at") with
    | none =>
      rw [hget] at hwritten
      cases hwritten
    | some x =>
      rw [hget] at hwritten
      exact congrArg some hwritten
  rw [textField_str h.has_account] at haccount
  rw [textField_str h.has_side] at hsells
  rw [textField_str hget] at hexecuted
  have ht : t = plainLogged account side t.whole t.fraction written := by
    cases t
    simp_all [plainLogged]
  obtain ⟨x, -, hx⟩ := Option.bind_eq_some_iff.1 h.has_amount
  rw [countedSql?, countedBank?, hlogged, htrade] at heq
  have hcents := (Prod.mk.inj (Option.some.inj heq)).2
  rw [ht] at hcents
  refine ⟨account, side, t.whole, t.fraction, cents, written, executedAt, ⟨h.has_account,
    h.account_ne, hindex, h.has_side, h.buy_or_sell, hamount, (amount_eq_delta h.buy_or_sell).1 hcents,
    cents_lt_of_quantizeCents hx, of_decide_eq_true hcast, hget, ?_, hload⟩⟩
  rw [← strField_str (P := P) hget]
  exact h.has_time

/-! ## The payload of a trade -/

/-- The payload of a trade. -/
def tradePayload (account side amount executedAt : String) : JsonObject :=
  [(ofString "account", .str (ofString account)), (ofString "side", .str (ofString side)),
    (ofString "amount", .str (ofString amount)),
    (ofString "executed_at", .str (ofString executedAt))]

/-- The payload of a trade that both sides read alike. -/
theorem plain_tradePayload {account side amount executedAt : String} {whole fraction : List ℕ}
    {cents : ℕ} {t : Aware} (haccount : ofString account ≠ [])
    (hindexable : Platform.ascii.indexable (ofString account) = true)
    (hside : ofString side = ofString "buy" ∨ ofString side = ofString "sell")
    (hamount : plainNumeral? (ofString amount) = some (whole, fraction))
    (hcents : numeralValue whole fraction * 100 = cents) (hbound : cents < 10 ^ precision)
    (hnumeric : (whole.dropWhile (· = 0)).length ≤ 131072 ∧ fraction.length ≤ 16383)
    (htime : fromIsoformat Platform.ascii.otherIso (ofString executedAt) = some (.aware t))
    (hload : Platform.ascii.loadable (time t) = true) :
    Plain .ascii (tradePayload account side amount executedAt) (ofString account) (ofString side)
      whole fraction cents (ofString executedAt) t where
  has_account := rfl
  account_ne := haccount
  indexable := hindexable
  has_side := rfl
  buy_or_sell := hside
  has_amount := hamount
  whole_cents := hcents
  bound := hbound
  numeric := hnumeric
  has_written := rfl
  has_time := htime
  loadable := hload

/-- Midnight, and some seconds. -/
def atMidnight (second : Fin 60) : Aware :=
  ⟨⟨⟨2024, 1, 1, 0, 0, second, 0⟩, by decide +revert⟩, ⟨0, by decide⟩⟩

/-- A trade in the account `alice`. -/
def aliceTrade (side amount : String) : JsonObject :=
  tradePayload "alice" side amount "2024-01-01T00:00:00+00:00"

/-- She buys for five dollars. -/
def purchase : Json.StoredObject := ⟨aliceTrade "buy" "5.00", aliceTrade "buy" "5.00", rfl⟩

theorem plain_purchase : Plain .ascii purchase.1 (ofString "alice") (ofString "buy") [5] [0, 0] 500
    (ofString "2024-01-01T00:00:00+00:00") (atMidnight 0) :=
  plain_tradePayload (by decide) (by decide +kernel) (.inl rfl) (by decide +kernel)
    (by decide +kernel) (by decide) (by decide) (by decide +kernel) (by decide +kernel)

end Hookit.Ledger
