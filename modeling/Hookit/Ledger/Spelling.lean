import Hookit.Ledger.Agreement

/-!
# What `parse_trade` promises

`AsSpelled` is the promise: a trade if the fields spell one, `None` otherwise, and nothing is
raised. `asSpelled_iff`: it is kept exactly when the amount is not a quiet `NaN` in a payload whose
other fields are in order, since the comparison `amount < 0` then raises `InvalidOperation` outside
of the `try`.
-/

namespace Hookit.Ledger

open Foundations Foundations.PyStr Foundations.PyDecimal Bank

section Definitions

variable (P : Platform) (payload : JsonObject)

/-- The fields that name the account and the side. -/
structure Sided (account side : PyStr) : Prop where
  has_account : Json.get payload (ofString "account") = some (.str account)
  account_ne : account ≠ []
  has_side : Json.get payload (ofString "side") = some (.str side)
  buy_or_sell : side = ofString "buy" ∨ side = ofString "sell"

/-- The fields spell a trade: the amount is a finite decimal, not below 0 after rounding half to
even to cents, of at most 28 digits, and the time has an offset. -/
structure SpelledTrade (account side : PyStr) (cents : ℕ) (executedAt : Aware) : Prop where
  sided : Sided payload account side
  amount : ∃ x value, decimal? (strField P payload "amount") = some x ∧ x.value? = some value ∧
    roundEven (value * 100) = cents
  bound : cents < 10 ^ precision
  time : fromIsoformat P.otherIso (strField P payload "executed_at") = some (.aware executedAt)

/-- `parse_trade` returns the trade that the fields spell, and `None` if they spell none. -/
def AsSpelled : Prop :=
  ∃ result, parseTrade P payload = .ok result ∧
    match result with
    | none => ∀ account side cents executedAt,
        ¬ SpelledTrade P payload account side cents executedAt
    | some trade => ∃ account side cents executedAt,
        SpelledTrade P payload account side cents executedAt ∧ trade.account = account ∧
          trade.delta = (if side = ofString "buy" then (cents : ℤ) else -cents) ∧
          trade.executedAt = Ledger.time executedAt

/-- The amount is a quiet `NaN`, and the other fields are in order. -/
def ComparesNan : Prop :=
  (∃ account side, Sided payload account side) ∧
    decimal? (strField P payload "amount") = some (.nan false) ∧
    fromIsoformat P.otherIso (strField P payload "executed_at") ≠ none

end Definitions

variable {P : Platform} {payload : JsonObject}

theorem quantizeCents_eq_nan_iff {x : PyDecimal} :
    quantizeCents x = some .nan ↔ x = .nan false := by
  cases x with
  | finite negative coefficient exponent =>
    simp only [quantizeCents, reduceCtorEq, iff_false]
    split <;> simp
  | infinity negative => simp [quantizeCents]
  | nan signalling => cases signalling <;> simp [quantizeCents]

theorem comparesNan_iff :
    ComparesNan P payload ↔ ∃ account side executedAt, NanTrade P payload account side executedAt := by
  constructor
  · rintro ⟨⟨account, side, h⟩, hamount, htime⟩
    obtain ⟨executedAt, htime⟩ := Option.ne_none_iff_exists'.1 htime
    refine ⟨account, side, executedAt, h.has_account, h.account_ne, h.has_side, h.buy_or_sell, ?_,
      htime⟩
    rw [hamount]
    rfl
  · rintro ⟨account, side, executedAt, h⟩
    obtain ⟨x, hx, hnan⟩ := Option.bind_eq_some_iff.1 h.has_amount
    rw [quantizeCents_eq_nan_iff.1 hnan] at hx
    refine ⟨⟨account, side, h.has_account, h.account_ne, h.has_side, h.buy_or_sell⟩, hx, ?_⟩
    rw [h.has_time]
    simp

/-- What a bank takes for a trade is what the fields spell, up to the sign of 0. -/
theorem spelledTrade_iff {account side : PyStr} {cents : ℕ} {executedAt : Aware} :
    SpelledTrade P payload account side cents executedAt ↔
      ∃ negative, TradeLike P payload account side negative cents executedAt := by
  constructor
  · intro h
    obtain ⟨x, value, hx, hvalue, hround⟩ := h.amount
    obtain ⟨negative, hcents, hzero⟩ :=
      exists_quantizeCents_iff.2 ⟨value, hvalue, hround, h.bound⟩
    refine ⟨negative, h.sided.has_account, h.sided.account_ne, h.sided.has_side,
      h.sided.buy_or_sell, ?_, hzero, h.time⟩
    rw [hx]
    exact hcents
  · rintro ⟨negative, h⟩
    obtain ⟨x, hx, hcents⟩ := Option.bind_eq_some_iff.1 h.has_amount
    obtain ⟨value, hvalue, hround, hlt⟩ := exists_quantizeCents_iff.1 ⟨negative, hcents, h.nonneg⟩
    exact ⟨⟨h.has_account, h.account_ne, h.has_side, h.buy_or_sell⟩, ⟨x, value, hx, hvalue, hround⟩,
      hlt, h.has_time⟩

/-- **`parse_trade` keeps its promise** unless it compares a `NaN`. -/
theorem asSpelled_iff (P : Platform) (payload : JsonObject) :
    AsSpelled P payload ↔ ¬ ComparesNan P payload := by
  rw [comparesNan_iff]
  simp only [not_exists]
  rw [← exists_parseTrade_iff]
  constructor
  · rintro ⟨result, hresult, -⟩
    exact ⟨result, hresult⟩
  · rintro ⟨result, hresult⟩
    have htrade : trade? P payload = result := by rw [trade?, hresult]; rfl
    refine ⟨result, hresult, ?_⟩
    cases result with
    | none =>
      intro account side cents executedAt hspelled
      obtain ⟨negative, hlike⟩ := spelledTrade_iff.1 hspelled
      have := trade?_eq_some_iff.2 ⟨account, side, negative, cents, executedAt, hlike, rfl⟩
      rw [htrade] at this
      cases this
    | some trade =>
      obtain ⟨account, side, negative, cents, executedAt, hlike, rfl⟩ := trade?_eq_some_iff.1 htrade
      exact ⟨account, side, cents, executedAt, spelledTrade_iff.2 ⟨negative, hlike⟩, rfl, rfl, rfl⟩

/-- A trade whose amount is `NaN`. -/
def nanPayload : JsonObject :=
  [(ofString "account", .str (ofString "alice")), (ofString "side", .str (ofString "buy")),
    (ofString "amount", .str (ofString "NaN")),
    (ofString "executed_at", .str (ofString "2026-07-01T12:00:00+00:00"))]

/-- An amount that is `NaN` raises. -/
theorem not_asSpelled : ¬ ∀ (P : Platform) (payload : JsonObject), AsSpelled P payload := by
  intro hall
  obtain ⟨result, hresult, -⟩ := hall .ascii nanPayload
  have hraised : parseTrade .ascii nanPayload = .error .invalidOperation := by decide +kernel
  rw [hraised] at hresult
  cases hresult

end Hookit.Ledger
