import Hookit.Ledger.Agreement
import Hookit.Producer.Prices

/-!
# `producer/trades.py`

What is random is drawn outside: an account, a side, and for each trade a notional in cents and an
id.

`understood_of_trades`: of every trade at a positive price, the bank and the reconciliation query
read the same signed amount, the product of quantity and price rounded to cents.
-/

namespace Hookit.Producer

open Foundations Foundations.PyStr Foundations.PyDecimal Ledger

/-- `TRADE_EVENT`. -/
def tradeEvent : PyStr := ofString "trade.executed"

/-- What is drawn for one trade: `round(uniform(25.0, 1500.0), 2)` in cents and `uuid4().hex`. -/
structure Draw where
  notional : ℕ
  notional_mem : 2500 ≤ notional ∧ notional ≤ 150000
  tradeId : PyStr

/-- `Decimal(str(x))` of a `float` that is a number of cents, which prints with one decimal if that
is enough. -/
def Draw.decimal (draw : Draw) : PyDecimal :=
  if draw.notional % 10 = 0 then .finite false (draw.notional / 10) (-1)
  else .finite false draw.notional (-2)

/-- What a trade can raise. -/
inductive TradeError
  | decimal (signal : DecimalException)
  | indexError
  deriving DecidableEq

/-- `build_trade_event`. -/
def buildTradeEvent (account symbol : PyStr) (price : PyDecimal) (side : PyStr)
    (quantity : PyDecimal) (tradeId : PyStr) (now : Aware) : Except DecimalException Event := do
  let product ← mul quantity price
  let amount ← quantize 2 product
  pure (tradeEvent, fields
    [("trade_id", tradeId), ("account", account), ("symbol", symbol), ("side", side),
      ("quantity", quantity.str), ("amount", amount.str), ("price", price.str),
      ("executed_at", now.isoformat)])

/-- `TradeGenerator`. -/
structure TradeGenerator where
  accounts : List PyStr
  lastPrice : PyStr → Option PyDecimal

namespace TradeGenerator

variable (g : TradeGenerator)

/-- `rng.choice(self.accounts)`, where a random number is drawn. -/
def choose (i : ℕ) : Except TradeError PyStr :=
  orRaise .indexError g.accounts[i % g.accounts.length]?

/-- `_quantity`. -/
def quantity (price : PyDecimal) (draw : Draw) : Except DecimalException PyDecimal := do
  let worthless ← le price (.finite false 0 0)
  if worthless then pure (.finite false 0 0)
  else
    let ratio ← div draw.decimal price
    quantize 8 ratio

/-- `_side`, where a coin is tossed. -/
def side (symbol : PyStr) (price : PyDecimal) (buys : Bool) : Except DecimalException PyStr :=
  let drawn := ofString (if buys then "buy" else "sell")
  match g.lastPrice symbol with
  | none => pure drawn
  | some prev => do
    let same ← eq prev price
    if same then pure drawn
    else
      let up ← gt price prev
      pure (ofString (if up then "buy" else "sell"))

/-- The generator with the last price of a symbol set. -/
def record (symbol : PyStr) (price : PyDecimal) : TradeGenerator :=
  { g with lastPrice := Function.update g.lastPrice symbol (some price) }

/-- One trade at this price. -/
def trade (account symbol : PyStr) (price : PyDecimal) (side : PyStr) (draw : Draw) (now : Aware) :
    Except TradeError Event :=
  .mapError .decimal do
    let quantity ← quantity price draw
    buildTradeEvent account symbol price side quantity draw.tradeId now

/-- `next_trade`. -/
def nextTrade (symbol : PyStr) (price : PyDecimal) (buys : Bool) (i : ℕ) (draw : Draw)
    (now : Aware) : Except TradeError (TradeGenerator × Event) := do
  let side ← .mapError .decimal (g.side symbol price buys)
  let account ← g.choose i
  let event ← trade account symbol price side draw now
  pure (g.record symbol price, event)

/-- `burst_same_account`, a draw for each trade. -/
def burstSameAccount (symbol : PyStr) (price : PyDecimal) (buys : Bool) (i : ℕ) (draws : List Draw)
    (now : Aware) : Except TradeError (TradeGenerator × List Event) := do
  let account ← g.choose i
  let side ← .mapError .decimal (g.side symbol price buys)
  let events ← draws.mapM fun draw => trade account symbol price side draw now
  pure (g.record symbol price, events)

end TradeGenerator

/-! ## What is read of a trade -/

/-- The signed number of cents that a side makes of an amount. -/
def signedCents (side : PyStr) (cents : ℤ) : ℤ := if side = ofString "buy" then cents else -cents

/-- **A trade that is read as it is meant**: the amount is the product of quantity and price, rounded
to 28 digits and then to cents; the bank finds the account, the time and the signed amount, and the
query counts the same. -/
structure Understood (P : Platform) (event : Event) (account side : PyStr) (price : PyDecimal)
    (now : Aware) (quantity : PyDecimal) (a b : ℚ) : Prop where
  type_eq : event.1 = tradeEvent
  has_account : Json.get event.2 (ofString "account") = some (.str account)
  has_side : Json.get event.2 (ofString "side") = some (.str side)
  buy_or_sell : side = ofString "buy" ∨ side = ofString "sell"
  has_quantity : Json.get event.2 (ofString "quantity") = some (.str quantity.str)
  has_price : Json.get event.2 (ofString "price") = some (.str price.str)
  quantity_eq : quantity.value? = some a
  price_eq : price.value? = some b
  parsed : ∃ trade, parseTrade P event.2 = .ok (some trade) ∧ trade.account = account ∧
    trade.executedAt = time now ∧ trade.delta = signedCents side (roundEven (rounded (a * b) * 100))
  logged : ∃ t, loggedTrade? P event.2 = some t ∧ t.castable = true ∧ t.account = account ∧
    t.amount * 100 = signedCents side (roundEven (rounded (a * b) * 100))

section Read

variable {P : Platform} {account symbol side : PyStr} {price quantity : PyDecimal} {tradeId : PyStr}
  {now : Aware} {event : Event}

/-- A positive price has no sign; an infinite one is no number. -/
theorem of_gt_zero (h : gt price (.finite false 0 0) = .ok true) :
    price = .infinity false ∨ ∃ n f, price = .finite false n f := by
  cases price with
  | nan signalling => cases h
  | infinity s =>
    cases s with
    | false => exact .inl rfl
    | true => exact absurd (Except.ok.inj h) (by decide)
  | finite s n f =>
    cases s with
    | false => exact .inr ⟨n, f, rfl⟩
    | true =>
      have hlt := of_decide_eq_true (Except.ok.inj h)
      have hnonneg : (0 : ℚ) ≤ n * 10 ^ f :=
        mul_nonneg (Nat.cast_nonneg _) (zpow_nonneg (by norm_num) _)
      simp only [number, if_true, Bool.false_eq_true, if_false, Nat.cast_zero, zero_mul] at hlt
      rcases hlt with hlt | ⟨-, hlt⟩
      · exact absurd hlt (by decide)
      · linarith

theorem Draw.exists_decimal (draw : Draw) : ∃ m e, draw.decimal = .finite false m e := by
  unfold Draw.decimal
  split_ifs
  · exact ⟨_, _, rfl⟩
  · exact ⟨_, _, rfl⟩

/-- The quantity at a positive price. -/
theorem exists_of_quantity {draw : Draw} (hprice : gt price (.finite false 0 0) = .ok true)
    (h : TradeGenerator.quantity price draw = .ok quantity) :
    ∃ c e, quantity = .finite false c e ∧ (price = .infinity false → c = 0) := by
  obtain ⟨m, k, hdraw⟩ := draw.exists_decimal
  obtain ⟨worthless, -, h⟩ := bind_eq_ok_iff.1 h
  cases worthless with
  | true =>
    obtain rfl := pure_eq_ok_iff.1 h
    exact ⟨0, 0, rfl, fun _ => rfl⟩
  | false =>
    obtain ⟨ratio, hratio, h⟩ := bind_eq_ok_iff.1 h
    rw [hdraw] at hratio
    obtain rfl | ⟨n, f, rfl⟩ := of_gt_zero hprice
    · obtain rfl := Except.ok.inj hratio
      have hzero : number (false ^^ false) 0 etiny = 0 := by simp [number]
      have hround : roundEven 0 = 0 := roundEven_intCast 0
      simp only [quantize, quantizeTo, hzero, zero_div, hround] at h
      split at h
      · exact ⟨0, _, (Except.ok.inj h).symm, fun _ => rfl⟩
      · cases h
    · simp only [div] at hratio
      split at hratio
      · cases hratio
      · have hnonneg := div_nonneg (number_false_nonneg m k) (number_false_nonneg n f)
        obtain ⟨c, e, rfl⟩ := ofRat_nonneg hnonneg hratio
        obtain ⟨c', rfl⟩ := exists_of_quantize h
        exact ⟨c', _, rfl, fun hinf => by cases hinf⟩

/-- A payload with an amount of cents and a time as the generator prints them. -/
structure Written (payload : JsonObject) (account side : PyStr) (cents : ℕ) (now : Aware) :
    Prop where
  has_account : Json.get payload (ofString "account") = some (.str account)
  has_side : Json.get payload (ofString "side") = some (.str side)
  has_amount : Json.get payload (ofString "amount") = some (.str (strCents false cents))
  has_time : Json.get payload (ofString "executed_at") = some (.str now.isoformat)

/-- What the query reads of it. -/
def writtenLogged (account side : PyStr) (cents : ℕ) (now : Aware) : LoggedTrade :=
  plainLogged account side (digitsOf (cents / 100)) (fixedDigits 10 2 cents) now.isoformat

section Written

variable {payload : JsonObject} {cents : ℕ}

theorem lt_ten_of_mem_cents (cents : ℕ) : (∀ d ∈ digitsOf (cents / 100), d < 10) ∧
    ∀ d ∈ fixedDigits 10 2 cents, d < 10 :=
  ⟨fun _ hd => lt_ten_of_mem_digitsOf hd, fun _ hd => lt_of_mem_fixedDigits (by norm_num) hd⟩

/-- The bank reads the amount and the time back. -/
theorem Written.tradeLike (h : Written payload account side cents now) (haccount : account ≠ [])
    (hside : side = ofString "buy" ∨ side = ofString "sell") (hlt : cents < 10 ^ precision) :
    TradeLike P payload account side false cents now := by
  obtain ⟨hwhole, hfraction⟩ := lt_ten_of_mem_cents cents
  refine ⟨h.has_account, haccount, h.has_side, hside, ?_, by simp, ?_⟩
  · rw [strField_str h.has_amount, strCents_eq_numeral]
    exact decimal?_bind_quantizeCents hwhole hfraction (digitsOf_ne_nil _) (numeralValue_cents cents)
      hlt (by simp)
  · rw [strField_str h.has_time]
    exact fromIsoformat_isoformat _ _

/-- The query finds a numeral. -/
theorem Written.loggedTrade? (h : Written payload account side cents now) :
    loggedTrade? P payload = some (writtenLogged account side cents now) := by
  obtain ⟨hwhole, hfraction⟩ := lt_ten_of_mem_cents cents
  refine loggedTrade?_eq_some_iff.2
    ⟨textField_str h.has_account, ?_, ?_, (textField_str h.has_time).symm⟩
  · rw [textField_str h.has_amount, strCents_eq_numeral]
    exact plainNumeral?_numeral hwhole hfraction (digitsOf_ne_nil _)
  · rw [textField_str h.has_side]
    simp [writtenLogged, plainLogged]

/-- The cast of the numeral does not overflow. -/
theorem castable_writtenLogged (hlt : cents < 10 ^ precision) :
    (writtenLogged account side cents now).castable = true := by
  have hlen : (digitsOf (cents / 100)).length ≤ precision :=
    length_digitsOf_le (k := precision - 1) ((Nat.div_le_self _ _).trans_lt hlt)
  have hdrop := (List.dropWhile_suffix (l := digitsOf (cents / 100)) (· = 0)).length_le
  refine decide_eq_true ⟨hdrop.trans (hlen.trans (by decide)), ?_⟩
  rw [writtenLogged, plainLogged, length_fixedDigits]
  decide

end Written

/-- **A trade at a positive price** is read as it is meant. -/
theorem understood_of_buildTradeEvent {c : ℕ} {e : ℤ} (haccount : account ≠ [])
    (hside : side = ofString "buy" ∨ side = ofString "sell")
    (hprice : gt price (.finite false 0 0) = .ok true) (hzero : price = .infinity false → c = 0)
    (h : buildTradeEvent account symbol price side (.finite false c e) tradeId now = .ok event) :
    ∃ a b, Understood P event account side price now (.finite false c e) a b := by
  obtain ⟨product, hproduct, h⟩ := bind_eq_ok_iff.1 h
  obtain ⟨amount, hamount, h⟩ := bind_eq_ok_iff.1 h
  have hevent := pure_eq_ok_iff.1 h
  obtain rfl | ⟨n, f, rfl⟩ := of_gt_zero hprice
  · rw [hzero rfl] at hproduct
    cases hproduct
  have hmul : mul (.finite false c e) (.finite false n f) =
      ofRat false (e + f) (number false c e * number false n f) := rfl
  rw [hmul] at hproduct
  have hnonneg := mul_nonneg (number_false_nonneg c e) (number_false_nonneg n f)
  obtain ⟨m, k, rfl⟩ := ofRat_nonneg hnonneg hproduct
  have hvalue : number false m k = rounded (number false c e * number false n f) :=
    Option.some.inj (value?_ofRat hproduct)
  obtain ⟨cents, rfl, hlt, hcents⟩ := quantize_two_eq_ok hamount
  rw [hvalue] at hcents
  rw [str_cents] at hevent
  obtain ⟨type, payload⟩ := event
  obtain ⟨rfl, rfl⟩ := Prod.mk.inj hevent
  generalize hpayload : fields _ = payload
  have hget : ∀ key, Json.get payload (ofString key) = _ := fun key => by
    rw [← hpayload, get_fields]
  have hwritten : Written payload account side cents now := ⟨hget _, hget _, hget _, hget _⟩
  have hsigned : (tradeOf P payload account side false cents now).delta =
      signedCents side (roundEven (rounded (number false c e * number false n f) * 100)) := by
    rw [← hcents]
    rfl
  have hlike : TradeLike P payload account side false cents now :=
    hwritten.tradeLike haccount hside hlt
  have htrade := toOption_eq_some_iff.1 (Option.join_eq_some_iff.1
    (trade?_eq_some_iff.2 ⟨account, side, false, cents, now, hlike, rfl⟩))
  have hsum : (writtenLogged account side cents now).amount * 100 =
      ((tradeOf P payload account side false cents now).delta : ℚ) :=
    (amount_eq_delta hside).2 (numeralValue_cents cents)
  refine ⟨number false c e, number false n f, rfl, hwritten.has_account, hwritten.has_side, hside,
    hget _, hget _, rfl, rfl, ⟨_, htrade, rfl, rfl, hsigned⟩,
    ⟨_, hwritten.loggedTrade?, castable_writtenLogged hlt, rfl, ?_⟩⟩
  rw [hsum, hsigned]

end Read

section Generator

variable {P : Platform} {g : TradeGenerator} {account symbol side : PyStr} {price : PyDecimal}
  {buys : Bool} {i : ℕ} {now : Aware} {event : Event}

theorem side_mem (h : g.side symbol price buys = .ok side) :
    side = ofString "buy" ∨ side = ofString "sell" := by
  have hchoice : ∀ {b : Bool}, ofString (if b then "buy" else "sell") = side →
      side = ofString "buy" ∨ side = ofString "sell" := by
    rintro b rfl
    cases b <;> simp
  unfold TradeGenerator.side at h
  dsimp only at h
  split at h
  · exact hchoice (pure_eq_ok_iff.1 h)
  · obtain ⟨same, -, h⟩ := bind_eq_ok_iff.1 h
    cases same with
    | true => exact hchoice (pure_eq_ok_iff.1 h)
    | false =>
      obtain ⟨up, -, h⟩ := bind_eq_ok_iff.1 h
      exact hchoice (pure_eq_ok_iff.1 h)

theorem mem_of_choose (h : g.choose i = .ok account) : account ∈ g.accounts :=
  List.mem_of_getElem? (orRaise_eq_ok_iff.1 h)

/-- One trade is read as it is meant. -/
theorem understood_of_trade {draw : Draw} (haccount : account ≠ [])
    (hside : side = ofString "buy" ∨ side = ofString "sell")
    (hprice : gt price (.finite false 0 0) = .ok true)
    (h : TradeGenerator.trade account symbol price side draw now = .ok event) :
    ∃ quantity a b, Understood P event account side price now quantity a b := by
  obtain ⟨quantity, hquantity, hbuild⟩ := bind_eq_ok_iff.1 (mapError_eq_ok_iff.1 h)
  obtain ⟨c, e, rfl, hzero⟩ := exists_of_quantity hprice hquantity
  exact ⟨_, understood_of_buildTradeEvent haccount hside hprice hzero hbuild⟩

/-- **The trades of a generator** are read as they are meant: the next trade, and all trades of a
burst with one account and one side. -/
theorem understood_of_trades (P : Platform) (haccounts : ∀ account ∈ g.accounts, account ≠ [])
    (hprice : gt price (.finite false 0 0) = .ok true) :
    (∀ draw g' event, g.nextTrade symbol price buys i draw now = .ok (g', event) →
      ∃ account side, g.choose i = .ok account ∧
        ∃ quantity a b, Understood P event account side price now quantity a b) ∧
    ∀ draws g' events, g.burstSameAccount symbol price buys i draws now = .ok (g', events) →
      events.length = draws.length ∧ ∃ account side, g.choose i = .ok account ∧
        ∀ event ∈ events, ∃ quantity a b, Understood P event account side price now quantity a b := by
  refine ⟨fun draw g' event h => ?_, fun draws g' events h => ?_⟩
  · obtain ⟨side, hside, h⟩ := bind_eq_ok_iff.1 h
    obtain ⟨account, haccount, h⟩ := bind_eq_ok_iff.1 h
    obtain ⟨event', hevent, h⟩ := bind_eq_ok_iff.1 h
    obtain ⟨-, rfl⟩ := Prod.mk.inj (pure_eq_ok_iff.1 h)
    exact ⟨account, side, haccount, understood_of_trade (haccounts _ (mem_of_choose haccount))
      (side_mem (mapError_eq_ok_iff.1 hside)) hprice hevent⟩
  · obtain ⟨account, haccount, h⟩ := bind_eq_ok_iff.1 h
    obtain ⟨side, hside, h⟩ := bind_eq_ok_iff.1 h
    obtain ⟨events', hevents, h⟩ := bind_eq_ok_iff.1 h
    obtain ⟨-, rfl⟩ := Prod.mk.inj (pure_eq_ok_iff.1 h)
    refine ⟨(mapM_eq_ok_iff.1 hevents).length_eq.symm, account, side, haccount,
      fun event hmem => ?_⟩
    obtain ⟨draw, -, hevent⟩ := exists_of_mem_mapM hevents hmem
    exact understood_of_trade (haccounts _ (mem_of_choose haccount))
      (side_mem (mapError_eq_ok_iff.1 hside)) hprice hevent

/-- The notional of 25 dollars at a price of 100. -/
theorem understood_of_trades_hundred : ∃ g' event account side quantity a b,
    TradeGenerator.nextTrade ⟨[ofString "alice"], fun _ => none⟩ (ofString "BTC-USD")
      (.finite false 100 0) true 0 ⟨2500, by decide, []⟩ .epoch = .ok (g', event) ∧
    Understood .ascii event account side (.finite false 100 0) .epoch quantity a b := by
  have hreturns : (TradeGenerator.nextTrade ⟨[ofString "alice"], fun _ => none⟩ (ofString "BTC-USD")
      (.finite false 100 0) true 0 ⟨2500, by decide, []⟩ .epoch).toOption.isSome = true := by
    decide +kernel
  obtain ⟨⟨g', event⟩, h⟩ := Option.isSome_iff_exists.1 hreturns
  have h' := toOption_eq_some_iff.1 h
  obtain ⟨account, side, -, quantity, a, b, hread⟩ :=
    (understood_of_trades .ascii (by decide) (by decide +kernel)).1 _ g' event h'
  exact ⟨g', event, account, side, quantity, a, b, h', hread⟩

end Generator

end Hookit.Producer
