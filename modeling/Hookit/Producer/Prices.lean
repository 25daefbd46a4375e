import Hookit.Foundations.Datetime
import Hookit.Foundations.DecimalContext
import Hookit.Foundations.Json
import Hookit.Foundations.Raise
import Hookit.Services.Transform

/-!
# `producer/prices.py`

From a price to its events. The arithmetic is a parameter: `Arithmetic.context` is `decimal` in its
default context, `Arithmetic.exact` computes with exact percentages.

`of_observe` says what one observation can do. In exact arithmetic the anchor of a symbol is the
price of its last alert, and the price stays within the threshold of it, exactly as long as the
anchor is not 0 (`feed_filters_iff`): an anchor of 0 makes every percentage 0, and stays.
-/

namespace Hookit.Producer

open Foundations Foundations.PyStr Foundations.PyDecimal

/-- The arithmetic that prices are computed in. -/
structure Arithmetic (α : Type) where
  ofNat : ℕ → α
  sub : α → α → Except DecimalException α
  mul : α → α → Except DecimalException α
  div : α → α → Except DecimalException α
  abs : α → Except DecimalException α
  eq : α → α → Except DecimalException Bool
  gt : α → α → Except DecimalException Bool
  ge : α → α → Except DecimalException Bool
  str : α → PyStr
  /-- `format(x, ".2f")`. -/
  fixed : α → PyStr

/-- The default context of `decimal`. -/
def Arithmetic.context : Arithmetic PyDecimal where
  ofNat n := .finite false n 0
  sub := PyDecimal.sub
  mul := PyDecimal.mul
  div := PyDecimal.div
  abs := PyDecimal.abs
  eq := PyDecimal.eq
  gt := PyDecimal.gt
  ge := PyDecimal.ge
  str := PyDecimal.str
  fixed := PyDecimal.fixed

/-- Exact arithmetic, with any way to print the numbers. -/
def Arithmetic.exact (str fixed : ℚ → PyStr) : Arithmetic ℚ where
  ofNat n := n
  sub x y := .ok (x - y)
  mul x y := .ok (x * y)
  div x y :=
    if y = 0 then .error (if x = 0 then .invalidOperation else .divisionByZero) else .ok (x / y)
  abs x := .ok |x|
  eq x y := .ok (x = y)
  gt x y := .ok (y < x)
  ge x y := .ok (y ≤ x)
  str
  fixed

/-- `parse_spot_price`, `none` where it raises `ValueError`. -/
def parseSpotPrice (printable : CodePoint → Bool) : Json → Option PyDecimal
  | .obj payload =>
    match Json.get payload (ofString "data") with
    | some (.obj data) =>
      (Json.get data (ofString "amount")).bind fun amount => decimal? (amount.toStr printable)
    | _ => none
  | _ => none

/-- `TICK_EVENT`. -/
def tickEvent : PyStr := ofString "price.tick"

/-- `ALERT_EVENT`. -/
def alertEvent : PyStr := ofString "price.alert"

/-- An event type and a payload. -/
abbrev Event := PyStr × JsonObject

/-- A payload with these fields. -/
def fields (items : List (String × PyStr)) : JsonObject :=
  items.map fun item => (ofString item.1, .str item.2)

/-- **A field** is found under its name. -/
theorem get_fields (items : List (String × PyStr)) (key : String) :
    Json.get (fields items) (ofString key) = (items.lookup key).map .str := by
  induction items with
  | nil => rfl
  | cons item items ih =>
    obtain ⟨k, v⟩ := item
    by_cases h : key = k
    · subst h
      simp [Json.get, fields]
    · have hne : ofString key ≠ ofString k := fun heq => h (ofString_injective heq)
      have hbeq : (key == k) = false := by simpa using h
      have hbeq' : (ofString key == ofString k) = false := by simpa using hne
      rw [List.lookup_cons, hbeq, ← ih]
      simp only [Json.get, fields, List.map_cons, List.lookup_cons, hbeq']

/-- `_split_symbol`. -/
def splitSymbol (symbol : PyStr) : PyStr × PyStr :=
  let quote := (symbol.dropWhile (· ≠ char '-')).drop 1
  (symbol.takeWhile (· ≠ char '-'), if quote = [] then ofString "USD" else quote)

/-- Per-symbol running state. -/
structure SymbolState (α : Type) where
  last : α
  anchor : α

/-- `PriceTracker`. -/
structure PriceTracker (α : Type) where
  thresholdPct : α
  states : PyStr → Option (SymbolState α)

/-- A tracker that has not seen a price. -/
def PriceTracker.start {α : Type} (thresholdPct : α) : PriceTracker α :=
  ⟨thresholdPct, fun _ => none⟩

section Functions

variable {α : Type} (A : Arithmetic α)

/-- `_pct_change`. -/
def pctChange (prev curr : α) : Except DecimalException α := do
  let zero ← A.eq prev (A.ofNat 0)
  if zero then pure (A.ofNat 0)
  else
    let change ← A.sub curr prev
    let ratio ← A.div change prev
    A.mul ratio (A.ofNat 100)

/-- The change and the percentage since the previous tick. -/
def tickChange (price : α) (prevPrice : Option α) : Except DecimalException (α × α) :=
  match prevPrice with
  | none => pure (A.ofNat 0, A.ofNat 0)
  | some prev => do
    let change ← A.sub price prev
    let pct ← pctChange A prev price
    pure (change, pct)

/-- The direction of a tick. -/
def tickDirection (change : α) : Except DecimalException PyStr := do
  let flat ← A.eq change (A.ofNat 0)
  if flat then pure (ofString "flat")
  else
    let up ← A.gt change (A.ofNat 0)
    pure (ofString (if up then "up" else "down"))

/-- `build_tick_event`. -/
def buildTickEvent (symbol : PyStr) (price : α) (prevPrice : Option α) (now : Aware) :
    Except DecimalException Event := do
  let (change, pct) ← tickChange A price prevPrice
  let direction ← tickDirection A change
  let (base, quote) := splitSymbol symbol
  pure (tickEvent, fields
    [("symbol", symbol), ("base", base), ("quote", quote), ("price", A.str price),
      ("change", A.str change), ("change_pct", A.fixed pct), ("direction", direction),
      ("observed_at", now.isoformat)])

/-- `build_alert_event`. -/
def buildAlertEvent (symbol : PyStr) (price anchorPrice thresholdPct : α) (now : Aware) :
    Except DecimalException Event := do
  let pct ← pctChange A anchorPrice price
  let up ← A.gt pct (A.ofNat 0)
  let size ← A.abs pct
  let (base, quote) := splitSymbol symbol
  let arrow := ofString (if up then "▲" else "▼")
  pure (alertEvent, fields
    [("symbol", symbol), ("base", base), ("quote", quote), ("price", A.str price),
      ("anchor_price", A.str anchorPrice), ("change_pct", A.fixed pct),
      ("direction", ofString (if up then "up" else "down")), ("threshold_pct", A.str thresholdPct),
      ("headline", base ++ ofString " " ++ arrow ++ ofString " " ++ A.fixed size ++
        ofString "% → " ++ A.str price ++ ofString " " ++ quote),
      ("observed_at", now.isoformat)])

/-- The move from the anchor is one of at least the threshold. -/
def crosses (thresholdPct anchor price : α) : Except DecimalException Bool := do
  let pct ← pctChange A anchor price
  let size ← A.abs pct
  A.ge size thresholdPct

namespace PriceTracker

variable (t : PriceTracker α)

/-- The tracker with the state of one symbol set. -/
def set (symbol : PyStr) (state : SymbolState α) : PriceTracker α :=
  { t with states := Function.update t.states symbol (some state) }

/-- `PriceTracker.observe`. -/
def observe (symbol : PyStr) (price : α) (now : Aware) :
    Except DecimalException (PriceTracker α × List Event) :=
  match t.states symbol with
  | none => do
    let tick ← buildTickEvent A symbol price none now
    pure (t.set symbol ⟨price, price⟩, [tick])
  | some state => do
    let tick ← buildTickEvent A symbol price (some state.last) now
    let crossed ← crosses A t.thresholdPct state.anchor price
    if crossed then
      let alert ← buildAlertEvent A symbol price state.anchor t.thresholdPct now
      pure (t.set symbol ⟨price, price⟩, [tick, alert])
    else pure (t.set symbol ⟨price, state.anchor⟩, [tick])

/-- `PriceTracker.latest`, symbol by symbol. -/
def latest (symbol : PyStr) : Option α := (t.states symbol).map (·.last)

/-- The alert anchor of a symbol. -/
def anchor (symbol : PyStr) : Option α := (t.states symbol).map (·.anchor)

end PriceTracker

/-- A price and the events that it produced. -/
structure Observation (α : Type) where
  symbol : PyStr
  price : α
  events : List Event

/-- The tracker is fed a stream of prices. -/
def feed (t : PriceTracker α) :
    List (PyStr × α × Aware) → Except DecimalException (PriceTracker α × List (Observation α))
  | [] => pure (t, [])
  | (symbol, price, now) :: stream => do
    let (t', events) ← t.observe A symbol price now
    let (last, log) ← feed t' stream
    pure (last, ⟨symbol, price, events⟩ :: log)

end Functions

/-! ## One observation -/

section Observe

variable {α : Type} {A : Arithmetic α} {t t' : PriceTracker α} {symbol : PyStr} {price : α}
  {now : Aware} {events : List Event}

theorem type_of_buildTickEvent {prevPrice : Option α} {event : Event}
    (h : buildTickEvent A symbol price prevPrice now = .ok event) : event.1 = tickEvent := by
  obtain ⟨change, -, h⟩ := bind_eq_ok_iff.1 h
  obtain ⟨direction, -, h⟩ := bind_eq_ok_iff.1 h
  exact congrArg Prod.fst (pure_eq_ok_iff.1 h).symm

theorem type_of_buildAlertEvent {anchor threshold : α} {event : Event}
    (h : buildAlertEvent A symbol price anchor threshold now = .ok event) :
    event.1 = alertEvent := by
  obtain ⟨pct, -, h⟩ := bind_eq_ok_iff.1 h
  obtain ⟨up, -, h⟩ := bind_eq_ok_iff.1 h
  obtain ⟨size, -, h⟩ := bind_eq_ok_iff.1 h
  exact congrArg Prod.fst (pure_eq_ok_iff.1 h).symm

/-- What an observation does to a symbol that has been seen: whether it alerts, and what is
recorded. -/
structure Moves (A : Arithmetic α) (t : PriceTracker α) (symbol : PyStr) (state : SymbolState α)
    (price : α) (now : Aware) (t' : PriceTracker α) (events : List Event) (tick : Event)
    (crossed : Bool) : Prop where
  of_crosses : crosses A t.thresholdPct state.anchor price = .ok crossed
  of_quiet : crossed = false → events = [tick] ∧ t' = t.set symbol ⟨price, state.anchor⟩
  of_crossed : crossed = true → t' = t.set symbol ⟨price, price⟩ ∧
    ∃ alert, buildAlertEvent A symbol price state.anchor t.thresholdPct now = .ok alert ∧
      events = [tick, alert]

/-- **What an observation can do.** -/
theorem of_observe (h : t.observe A symbol price now = .ok (t', events)) :
    ∃ tick, buildTickEvent A symbol price (t.latest symbol) now = .ok tick ∧
      ((t.states symbol = none ∧ events = [tick] ∧ t' = t.set symbol ⟨price, price⟩) ∨
        ∃ state crossed, t.states symbol = some state ∧
          Moves A t symbol state price now t' events tick crossed) := by
  unfold PriceTracker.observe at h
  unfold PriceTracker.latest
  cases hstate : t.states symbol with
  | none =>
    simp only [hstate] at h
    obtain ⟨tick, htick, h⟩ := bind_eq_ok_iff.1 h
    obtain ⟨rfl, rfl⟩ := Prod.mk.inj (pure_eq_ok_iff.1 h)
    exact ⟨tick, htick, .inl ⟨rfl, rfl, rfl⟩⟩
  | some state =>
    simp only [hstate] at h
    obtain ⟨tick, htick, h⟩ := bind_eq_ok_iff.1 h
    obtain ⟨crossed, hcrossed, h⟩ := bind_eq_ok_iff.1 h
    refine ⟨tick, htick, .inr ⟨state, crossed, rfl, hcrossed, ?_, ?_⟩⟩
    · rintro rfl
      obtain ⟨rfl, rfl⟩ := Prod.mk.inj (pure_eq_ok_iff.1 h)
      exact ⟨rfl, rfl⟩
    · rintro rfl
      obtain ⟨alert, halert, h⟩ := bind_eq_ok_iff.1 h
      obtain ⟨rfl, rfl⟩ := Prod.mk.inj (pure_eq_ok_iff.1 h)
      exact ⟨rfl, alert, halert, rfl⟩

@[simp] theorem PriceTracker.states_set_self (state : SymbolState α) :
    (t.set symbol state).states symbol = some state := Function.update_self ..

theorem PriceTracker.states_set_of_ne {other : PyStr} (state : SymbolState α) (h : other ≠ symbol) :
    (t.set symbol state).states other = t.states other := Function.update_of_ne h ..

theorem PriceTracker.anchor_of_states {state : SymbolState α} (h : t.states symbol = some state) :
    t.anchor symbol = some state.anchor := by
  rw [PriceTracker.anchor, h]
  rfl

@[simp] theorem PriceTracker.anchor_set_self (state : SymbolState α) :
    (t.set symbol state).anchor symbol = some state.anchor :=
  anchor_of_states (t.states_set_self state)

/-- **Other symbols** are left alone, and the threshold is. -/
theorem frame_observe (h : t.observe A symbol price now = .ok (t', events)) :
    t'.thresholdPct = t.thresholdPct ∧
      ∀ other, other ≠ symbol → t'.states other = t.states other := by
  have hset : ∀ state, (t.set symbol state).thresholdPct = t.thresholdPct ∧
      ∀ other, other ≠ symbol → (t.set symbol state).states other = t.states other :=
    fun state => ⟨rfl, fun _ hother => t.states_set_of_ne state hother⟩
  obtain ⟨tick, -, ⟨-, -, rfl⟩ | ⟨state, crossed, -, hmove⟩⟩ := of_observe h
  · exact hset _
  · cases crossed with
    | false =>
      obtain ⟨-, rfl⟩ := hmove.of_quiet rfl
      exact hset _
    | true =>
      obtain ⟨rfl, -⟩ := hmove.of_crossed rfl
      exact hset _

end Observe

/-! ## The anchor over a stream -/

section Anchor

variable {α : Type} {A : Arithmetic α} {t t' : PriceTracker α} {symbol : PyStr} {price : α}
  {now : Aware} {events : List Event} {log log' : List (Observation α)}

/-- The observation produced an alert. -/
def Observation.alerted (o : Observation α) : Bool := o.events.any (·.1 = alertEvent)

/-- The price of a symbol's most recent alert, or its first price. -/
def anchorPrice (log : List (Observation α)) (symbol : PyStr) : Option α :=
  let own := log.filter (·.symbol = symbol)
  (((own.filter Observation.alerted).getLast?).or own.head?).map (·.price)

/-- The anchors are those that the log of the observations says. -/
def Anchored (t : PriceTracker α) (log : List (Observation α)) : Prop :=
  ∀ symbol, t.anchor symbol = anchorPrice log symbol

theorem anchorPrice_of_ne {o : Observation α} (h : o.symbol ≠ symbol) :
    anchorPrice (log ++ [o]) symbol = anchorPrice log symbol := by
  simp [anchorPrice, List.filter_append, h]

/-- An alert makes its price the anchor. -/
theorem anchorPrice_of_alerted (log : List (Observation α)) {o : Observation α}
    (h : o.alerted = true) :
    anchorPrice (log ++ [o]) o.symbol = some o.price := by
  simp [anchorPrice, List.filter_append, h]

/-- A price without an alert is the anchor if it is the first. -/
theorem anchorPrice_of_quiet (log : List (Observation α)) {o : Observation α}
    (h : o.alerted = false) :
    anchorPrice (log ++ [o]) o.symbol = (anchorPrice log o.symbol).or (some o.price) := by
  unfold anchorPrice
  simp only [List.filter_append, List.filter_cons, decide_true, if_true, List.filter_nil, h,
    Bool.false_eq_true, if_false, List.append_nil]
  cases hown : log.filter (·.symbol = o.symbol) with
  | nil => simp
  | cons first rest =>
    cases (List.filter Observation.alerted (first :: rest)).getLast? <;> simp

/-- **The anchor follows the alerts**: one observation. -/
theorem Anchored.observe (ht : Anchored t log)
    (h : t.observe A symbol price now = .ok (t', events)) :
    Anchored t' (log ++ [⟨symbol, price, events⟩]) := by
  intro other
  by_cases hother : other = symbol
  · subst hother
    have hticks : tickEvent ≠ alertEvent := by decide
    obtain ⟨tick, htick, hcase⟩ := of_observe h
    have htype := type_of_buildTickEvent htick
    have hquiet : (⟨other, price, [tick]⟩ : Observation α).alerted = false := by
      simp [Observation.alerted, htype, hticks]
    have hold := ht other
    obtain ⟨hstate, rfl, rfl⟩ | ⟨state, crossed, hstate, hmove⟩ := hcase
    · rw [PriceTracker.anchor, hstate, Option.map_none] at hold
      have hanchor := anchorPrice_of_quiet log hquiet
      rw [PriceTracker.anchor_set_self, hanchor, ← hold]
      rfl
    · rw [PriceTracker.anchor_of_states hstate] at hold
      cases crossed with
      | false =>
        obtain ⟨rfl, rfl⟩ := hmove.of_quiet rfl
        have hanchor := anchorPrice_of_quiet log hquiet
        rw [PriceTracker.anchor_set_self, hanchor, ← hold]
        rfl
      | true =>
        obtain ⟨rfl, alert, halert, rfl⟩ := hmove.of_crossed rfl
        have halerted : (⟨other, price, [tick, alert]⟩ : Observation α).alerted = true := by
          simp [Observation.alerted, type_of_buildAlertEvent halert]
        have hanchor := anchorPrice_of_alerted log halerted
        rw [PriceTracker.anchor_set_self, hanchor]
  · have hne : symbol ≠ other := fun heq => hother heq.symm
    have hstates := (frame_observe h).2 other hother
    have hanchor : t'.anchor other = t.anchor other := by
      rw [PriceTracker.anchor, hstates, PriceTracker.anchor]
    rw [hanchor, anchorPrice_of_ne hne]
    exact ht other

/-- The anchor follows the alerts: a stream. -/
theorem Anchored.feed {stream : List (PyStr × α × Aware)} (ht : Anchored t log)
    (h : feed A t stream = .ok (t', log')) : Anchored t' (log ++ log') := by
  induction stream generalizing t log log' with
  | nil =>
    obtain ⟨rfl, rfl⟩ := Prod.mk.inj (pure_eq_ok_iff.1 h)
    rw [List.append_nil]
    exact ht
  | cons first stream ih =>
    obtain ⟨symbol, price, now⟩ := first
    obtain ⟨⟨t₁, events⟩, hfirst, h⟩ := bind_eq_ok_iff.1 h
    obtain ⟨⟨t₂, rest⟩, hrest, h⟩ := bind_eq_ok_iff.1 h
    obtain ⟨rfl, rfl⟩ := Prod.mk.inj (pure_eq_ok_iff.1 h)
    have := ih (ht.observe hfirst) hrest
    rwa [List.append_assoc, List.singleton_append] at this

theorem anchored_start (thresholdPct : α) : Anchored (.start thresholdPct) [] := fun _ => rfl

/-- The threshold stays as it is. -/
theorem thresholdPct_of_feed {stream : List (PyStr × α × Aware)}
    (h : feed A t stream = .ok (t', log')) : t'.thresholdPct = t.thresholdPct := by
  induction stream generalizing t log' with
  | nil =>
    obtain ⟨rfl, -⟩ := Prod.mk.inj (pure_eq_ok_iff.1 h)
    rfl
  | cons first stream ih =>
    obtain ⟨symbol, price, now⟩ := first
    obtain ⟨⟨t₁, events⟩, hfirst, h⟩ := bind_eq_ok_iff.1 h
    obtain ⟨⟨t₂, rest⟩, hrest, h⟩ := bind_eq_ok_iff.1 h
    obtain ⟨rfl, -⟩ := Prod.mk.inj (pure_eq_ok_iff.1 h)
    exact (ih hrest).trans (frame_observe hfirst).1

end Anchor

/-! ## Exact percentages -/

section Exact

variable {str fixed : ℚ → PyStr} {threshold : ℚ} {t : PriceTracker ℚ} {symbol : PyStr} {price : ℚ}
  {now : Aware} {log : List (Observation ℚ)}

/-- The price is within the threshold of the anchor. -/
def Within (threshold anchor price : ℚ) : Prop :=
  price = anchor ∨ |price - anchor| * 100 < threshold * |anchor|

instance (threshold anchor price : ℚ) : Decidable (Within threshold anchor price) :=
  inferInstanceAs (Decidable (_ ∨ _))

/-- **What an observation should do**, after those of the log: the anchor is the price of the last
alert and the price is within the threshold of it; there is an alert exactly if the price is not
within the threshold of the anchor before, which the alert reports; other symbols are left alone. -/
structure Filters (A : Arithmetic ℚ) (t : PriceTracker ℚ) (log : List (Observation ℚ))
    (symbol : PyStr) (price : ℚ) (now : Aware) (t' : PriceTracker ℚ) (events : List Event) :
    Prop where
  returns : t.observe A symbol price now = .ok (t', events)
  anchored : Anchored t' (log ++ [⟨symbol, price, events⟩])
  within : ∀ anchor ∈ t'.anchor symbol, Within t.thresholdPct anchor price
  alerts : ∀ event, event ∈ events ∧ event.1 = alertEvent ↔
    ∃ anchor ∈ t.anchor symbol, ¬ Within t.thresholdPct anchor price ∧
      buildAlertEvent A symbol price anchor t.thresholdPct now = .ok event
  frame : ∀ other, other ≠ symbol → t'.states other = t.states other

theorem pctChange_exact (prev curr : ℚ) : pctChange (.exact str fixed) prev curr =
    .ok (if prev = 0 then 0 else (curr - prev) / prev * 100) := by
  by_cases h : prev = 0
  · rw [if_pos h, h]
    rfl
  · simp [pctChange, Arithmetic.exact, h, bind, Except.bind]

/-- An anchor of 0 is never left. -/
theorem crosses_exact (str fixed : ℚ → PyStr) (hthreshold : 0 < threshold) (anchor price : ℚ) :
    crosses (.exact str fixed) threshold anchor price =
      .ok (decide (anchor ≠ 0 ∧ ¬ Within threshold anchor price)) := by
  have hcompare : crosses (.exact str fixed) threshold anchor price =
      .ok (threshold ≤ |if anchor = 0 then 0 else (price - anchor) / anchor * 100|) := by
    rw [crosses, pctChange_exact]
    rfl
  rw [hcompare]
  congr 1
  rw [decide_eq_decide]
  by_cases h : anchor = 0
  · simp [h, hthreshold]
  · have hpos : 0 < |anchor| := abs_pos.2 h
    have hhundred : |(100 : ℚ)| = 100 := abs_of_pos (by norm_num)
    rw [if_neg h, abs_mul, abs_div, div_mul_eq_mul_div, le_div_iff₀ hpos, hhundred]
    unfold Within
    rw [not_or, not_lt]
    refine ⟨fun hle => ⟨h, ?_, hle⟩, fun hle => hle.2.2⟩
    rintro rfl
    rw [sub_self, abs_zero, zero_mul] at hle
    exact absurd hle (not_le.2 (mul_pos hthreshold hpos))

theorem exists_buildTickEvent_exact (str fixed : ℚ → PyStr) (symbol : PyStr) (price : ℚ)
    (prevPrice : Option ℚ) (now : Aware) :
    ∃ tick, buildTickEvent (.exact str fixed) symbol price prevPrice now = .ok tick := by
  have hdirection : ∀ change, ∃ direction,
      tickDirection (.exact str fixed) change = .ok direction := by
    intro change
    by_cases h : change = 0
    · exact ⟨_, by simp [tickDirection, Arithmetic.exact, h, ok_bind]; rfl⟩
    · exact ⟨_, by simp [tickDirection, Arithmetic.exact, h, ok_bind]; rfl⟩
  cases prevPrice with
  | none =>
    obtain ⟨direction, hdir⟩ := hdirection 0
    refine ⟨_, bind_eq_ok_iff.2 ⟨(0, 0), rfl, bind_eq_ok_iff.2 ⟨direction, hdir, rfl⟩⟩⟩
  | some prev =>
    obtain ⟨direction, hdir⟩ := hdirection (price - prev)
    have hchange : tickChange (.exact str fixed) price (some prev) = .ok (price - prev, _) :=
      bind_eq_ok_iff.2 ⟨price - prev, rfl, bind_eq_ok_iff.2 ⟨_, pctChange_exact prev price, rfl⟩⟩
    exact ⟨_, bind_eq_ok_iff.2 ⟨_, hchange, bind_eq_ok_iff.2 ⟨direction, hdir, rfl⟩⟩⟩

theorem exists_buildAlertEvent_exact (str fixed : ℚ → PyStr) (symbol : PyStr)
    (price anchor threshold : ℚ) (now : Aware) :
    ∃ alert, buildAlertEvent (.exact str fixed) symbol price anchor threshold now = .ok alert :=
  ⟨_, bind_eq_ok_iff.2 ⟨_, pctChange_exact anchor price,
    bind_eq_ok_iff.2 ⟨_, rfl, bind_eq_ok_iff.2 ⟨_, rfl, rfl⟩⟩⟩⟩

/-- In exact arithmetic an observation returns. -/
theorem exists_observe_exact (str fixed : ℚ → PyStr) (hthreshold : 0 < t.thresholdPct)
    (symbol : PyStr) (price : ℚ) (now : Aware) :
    ∃ r, t.observe (.exact str fixed) symbol price now = .ok r := by
  unfold PriceTracker.observe
  cases t.states symbol with
  | none =>
    obtain ⟨tick, htick⟩ := exists_buildTickEvent_exact str fixed symbol price none now
    exact ⟨_, bind_eq_ok_iff.2 ⟨tick, htick, rfl⟩⟩
  | some state =>
    obtain ⟨tick, htick⟩ := exists_buildTickEvent_exact str fixed symbol price
      (some state.last) now
    obtain ⟨alert, halert⟩ := exists_buildAlertEvent_exact str fixed symbol price
      state.anchor t.thresholdPct now
    have hcross := crosses_exact str fixed hthreshold state.anchor price
    by_cases h : state.anchor ≠ 0 ∧ ¬ Within t.thresholdPct state.anchor price
    · rw [decide_eq_true h] at hcross
      exact ⟨_, bind_eq_ok_iff.2 ⟨tick, htick, bind_eq_ok_iff.2 ⟨true, hcross,
        bind_eq_ok_iff.2 ⟨alert, halert, rfl⟩⟩⟩⟩
    · rw [decide_eq_false h] at hcross
      exact ⟨_, bind_eq_ok_iff.2 ⟨tick, htick, bind_eq_ok_iff.2 ⟨false, hcross, rfl⟩⟩⟩

section Step

variable {t' : PriceTracker ℚ} {events : List Event}

/-- When the move is one of at least the threshold. -/
theorem Moves.crossed_iff (hthreshold : 0 < t.thresholdPct) {state : SymbolState ℚ} {tick : Event}
    {crossed : Bool} (h : Moves (.exact str fixed) t symbol state price now t' events tick crossed) :
    crossed = true ↔ state.anchor ≠ 0 ∧ ¬ Within t.thresholdPct state.anchor price := by
  have hcrossed := h.of_crosses
  rw [crosses_exact str fixed hthreshold] at hcrossed
  rw [← Except.ok.inj hcrossed, decide_eq_true_eq]

/-- **The price stays within the threshold** of the anchor, unless it moves away from 0. -/
theorem within_of_observe (hthreshold : 0 < t.thresholdPct)
    (h : t.observe (.exact str fixed) symbol price now = .ok (t', events))
    (hcond : t.anchor symbol = some 0 → price = 0) :
    ∀ anchor ∈ t'.anchor symbol, Within t.thresholdPct anchor price := by
  intro anchor hanchor
  obtain ⟨tick, -, ⟨-, -, rfl⟩ | ⟨state, crossed, hstate, hmove⟩⟩ := of_observe h
  · rw [PriceTracker.anchor_set_self] at hanchor
    exact .inl (Option.some.inj hanchor)
  · have hiff := hmove.crossed_iff hthreshold
    cases crossed with
    | true =>
      obtain ⟨rfl, -⟩ := hmove.of_crossed rfl
      rw [PriceTracker.anchor_set_self] at hanchor
      exact .inl (Option.some.inj hanchor)
    | false =>
      obtain ⟨-, rfl⟩ := hmove.of_quiet rfl
      rw [PriceTracker.anchor_set_self] at hanchor
      obtain rfl : state.anchor = anchor := Option.some.inj hanchor
      by_cases hzero : state.anchor = 0
      · left
        rw [hzero]
        exact hcond (by rw [PriceTracker.anchor_of_states hstate, hzero])
      · by_contra hwithin
        exact Bool.false_ne_true (hiff.2 ⟨hzero, hwithin⟩)

/-- **There is an alert** exactly if the price left the threshold, and it reports the anchor. -/
theorem alerts_of_observe (hthreshold : 0 < t.thresholdPct)
    (h : t.observe (.exact str fixed) symbol price now = .ok (t', events))
    (hcond : t.anchor symbol = some 0 → price = 0) (event : Event) :
    event ∈ events ∧ event.1 = alertEvent ↔
      ∃ anchor ∈ t.anchor symbol, ¬ Within t.thresholdPct anchor price ∧
        buildAlertEvent (.exact str fixed) symbol price anchor t.thresholdPct now = .ok event := by
  have hticks : tickEvent ≠ alertEvent := by decide
  obtain ⟨tick, htick, hcase⟩ := of_observe h
  have htype := type_of_buildTickEvent htick
  -- the tick alone is no alert
  have hquiet : ¬ (event ∈ [tick] ∧ event.1 = alertEvent) := by
    rintro ⟨hmem, halert⟩
    rw [List.mem_singleton.1 hmem, htype] at halert
    exact hticks halert
  obtain ⟨hstate, rfl, -⟩ | ⟨state, crossed, hstate, hmove⟩ := hcase
  · refine iff_of_false hquiet ?_
    rintro ⟨anchor, hanchor, -⟩
    rw [PriceTracker.anchor, hstate] at hanchor
    cases hanchor
  · have hiff := hmove.crossed_iff hthreshold
    rw [PriceTracker.anchor_of_states hstate]
    cases crossed with
    | true =>
      obtain ⟨-, alert, halert, rfl⟩ := hmove.of_crossed rfl
      constructor
      · rintro ⟨hmem, heventType⟩
        rcases List.mem_cons.1 hmem with rfl | hmem
        · exact absurd (htype.symm.trans heventType) hticks
        · obtain rfl := List.mem_singleton.1 hmem
          exact ⟨state.anchor, rfl, (hiff.1 rfl).2, halert⟩
      · rintro ⟨anchor, hanchor, -, hevent⟩
        obtain rfl : state.anchor = anchor := Option.some.inj hanchor
        obtain rfl : alert = event := Except.ok.inj (halert.symm.trans hevent)
        exact ⟨by simp, type_of_buildAlertEvent halert⟩
    | false =>
      obtain ⟨rfl, -⟩ := hmove.of_quiet rfl
      refine iff_of_false hquiet ?_
      rintro ⟨anchor, hanchor, hwithin, -⟩
      obtain rfl : state.anchor = anchor := Option.some.inj hanchor
      have hzero : state.anchor = 0 := by
        by_contra hne
        exact Bool.false_ne_true (hiff.2 ⟨hne, hwithin⟩)
      have hprice := hcond (by rw [PriceTracker.anchor_of_states hstate, hzero])
      exact hwithin (.inl (hprice.trans hzero.symm))

/-- **An anchor of 0 stays**, and no other price is within any threshold of it. -/
theorem Filters.eq_zero (hthreshold : 0 < t.thresholdPct)
    (h : Filters (.exact str fixed) t log symbol price now t' events)
    (hzero : t.anchor symbol = some 0) : price = 0 := by
  obtain ⟨tick, -, ⟨hstate, -, -⟩ | ⟨state, crossed, hstate, hmove⟩⟩ := of_observe h.returns
  · rw [PriceTracker.anchor, hstate] at hzero
    cases hzero
  · rw [PriceTracker.anchor_of_states hstate] at hzero
    have hanchor : state.anchor = 0 := Option.some.inj hzero
    have hiff := hmove.crossed_iff hthreshold
    cases crossed with
    | true => exact absurd hanchor (hiff.1 rfl).1
    | false =>
      obtain ⟨-, rfl⟩ := hmove.of_quiet rfl
      have hstays : (t.set symbol ⟨price, state.anchor⟩).anchor symbol = some 0 := by
        rw [PriceTracker.anchor_set_self, hanchor]
      rcases h.within 0 hstays with hprice | hlt
      · exact hprice
      · rw [abs_zero, mul_zero] at hlt
        have := abs_nonneg (price - 0)
        linarith

end Step

/-- **One observation** does what it should unless it moves away from an anchor of 0. -/
theorem filters_iff (hthreshold : 0 < t.thresholdPct) (ht : Anchored t log) :
    (∃ t' events, Filters (.exact str fixed) t log symbol price now t' events) ↔
      (t.anchor symbol = some 0 → price = 0) := by
  constructor
  · rintro ⟨t', events, h⟩
    exact h.eq_zero hthreshold
  · intro hcond
    obtain ⟨⟨t', events⟩, h⟩ := exists_observe_exact str fixed hthreshold symbol price now
    exact ⟨t', events, h, ht.observe h, within_of_observe hthreshold h hcond,
      alerts_of_observe hthreshold h hcond, (frame_observe h).2⟩

/-- In exact arithmetic a stream is taken in. -/
theorem exists_feed_exact (str fixed : ℚ → PyStr) (hthreshold : 0 < t.thresholdPct)
    (stream : List (PyStr × ℚ × Aware)) :
    ∃ t' log, feed (.exact str fixed) t stream = .ok (t', log) := by
  induction stream generalizing t with
  | nil => exact ⟨t, [], rfl⟩
  | cons first stream ih =>
    obtain ⟨symbol, price, now⟩ := first
    obtain ⟨⟨t₁, events⟩, hfirst⟩ := exists_observe_exact str fixed hthreshold
      symbol price now
    obtain ⟨t₂, log, hrest⟩ := ih ((frame_observe hfirst).1 ▸ hthreshold)
    exact ⟨t₂, _, bind_eq_ok_iff.2 ⟨_, hfirst, bind_eq_ok_iff.2 ⟨_, hrest, rfl⟩⟩⟩

/-- **Alerts over any stream of prices**: after it, the next observation does what it should exactly
if it does not move away from an anchor of 0. -/
theorem feed_filters_iff (str fixed : ℚ → PyStr) (hthreshold : 0 < threshold)
    (stream : List (PyStr × ℚ × Aware)) :
    ∃ t log, feed (.exact str fixed) (.start threshold) stream = .ok (t, log) ∧
      ∀ symbol price now,
        (∃ t' events, Filters (.exact str fixed) t log symbol price now t' events) ↔
          (t.anchor symbol = some 0 → price = 0) := by
  obtain ⟨t, log, h⟩ := exists_feed_exact str fixed
    (t := .start threshold) hthreshold stream
  have hsame := thresholdPct_of_feed h
  exact ⟨t, log, h, fun symbol price now =>
    filters_iff (hsame ▸ hthreshold) ((anchored_start threshold).feed h)⟩

/-- A price of 100 and one of 102 after it, at a threshold of one percent. -/
theorem feed_filters_iff_hundred : ∃ t log,
    feed (.exact (fun _ => []) fun _ => []) (.start 1)
      [(ofString "BTC-USD", 100, .epoch), (ofString "BTC-USD", 102, .epoch)] = .ok (t, log) ∧
    ∀ symbol price now,
      (∃ t' events, Filters (.exact (fun _ => []) fun _ => []) t log symbol price now t' events) ↔
        (t.anchor symbol = some 0 → price = 0) :=
  feed_filters_iff _ _ (by norm_num) _

/-- **After a price of 0 no move is alerted**: the price of 100 that follows is no alert. -/
theorem not_feed_filters : ∃ (threshold : ℚ) (stream : List (PyStr × ℚ × Aware))
    (t : PriceTracker ℚ) (log : List (Observation ℚ)), 0 < threshold ∧
    feed (.exact (fun _ => []) fun _ => []) (.start threshold) stream = .ok (t, log) ∧
    ¬ ∃ t' events, Filters (.exact (fun _ => []) fun _ => []) t log (ofString "BTC-USD") 100 .epoch
      t' events := by
  have hpos : (0 : ℚ) < (PriceTracker.start (1 / 2 : ℚ)).thresholdPct := by decide +kernel
  obtain ⟨⟨t, events⟩, h⟩ := exists_observe_exact (fun _ => []) (fun _ => []) hpos
    (ofString "BTC-USD") 0 .epoch
  have hfeed : feed (.exact (fun _ => []) fun _ => []) (.start (1 / 2))
      [(ofString "BTC-USD", 0, .epoch)] = .ok (t, [⟨ofString "BTC-USD", 0, events⟩]) :=
    bind_eq_ok_iff.2 ⟨_, h, bind_eq_ok_iff.2 ⟨_, rfl, rfl⟩⟩
  have hanchor : t.anchor (ofString "BTC-USD") = some 0 := by
    obtain ⟨-, -, ⟨-, -, rfl⟩ | ⟨state, -, hstate, -⟩⟩ := of_observe h
    · rw [PriceTracker.anchor, PriceTracker.states_set_self]
      rfl
    · cases hstate
  refine ⟨_, _, t, _, by norm_num, hfeed, fun hfilters => ?_⟩
  have hthreshold : 0 < t.thresholdPct := thresholdPct_of_feed hfeed ▸ hpos
  have := (filters_iff hthreshold ((anchored_start _).feed hfeed)).1 hfilters hanchor
  norm_num at this

end Exact

end Hookit.Producer
