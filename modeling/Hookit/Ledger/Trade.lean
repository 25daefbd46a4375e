import Hookit.Database
import Hookit.Foundations.Jsonb

/-!
# `app/services/showcase_ledger.py`: trades

A `trade.executed` payload is read twice: by the banks in Python (`parseTrade`) and by the
reconciliation query in SQL (`loggedTrade?`).

What Python's library and PostgreSQL do beyond the code is collected in `Platform`: which
characters are printable, what `fromisoformat` reads beside the output of `isoformat`, the text of
a composite `jsonb` value, the collation, which instants psycopg reads back as a `datetime` and
which texts fit an index.
-/

namespace Hookit.Ledger

open Foundations Foundations.PyStr Foundations.PyDecimal Bank

/-- What the ledger uses of Python's library and of PostgreSQL. -/
structure Platform where
  printable : CodePoint → Bool
  storable_of_printable : ∀ c, printable c = true → storableChar c = true
  /-- `fromisoformat` on text that `isoformat` does not write. -/
  otherIso : PyStr → Option Datetime
  /-- Only a string can spell a time with an offset. -/
  otherIso_toStr : ∀ x t, otherIso (Json.toStr printable x) = some (.aware t) → ∃ s, x = .str s
  /-- The text of an object or an array. -/
  composite : Json → PyStr
  plainNumeral?_composite : ∀ x, plainNumeral? (composite x) = none
  /-- The greater of two texts in the collation of the database. -/
  maxText : PyStr → PyStr → PyStr
  maxText_eq : ∀ s t, maxText s t = s ∨ maxText s t = t
  /-- psycopg reads the instant as a `datetime`: it is within the years 1 to 9999. -/
  loadable : Time → Bool
  /-- The text fits an entry of a B-tree index. -/
  indexable : PyStr → Bool

/-- A platform for text in ASCII, compared code point by code point. -/
def Platform.ascii : Platform where
  printable := Json.isVisible
  storable_of_printable := Json.storable_of_isVisible
  otherIso _ := none
  otherIso_toStr _ _ h := nomatch h
  composite _ := [codePoint 0x7B, codePoint 0x7D]
  plainNumeral?_composite _ := by decide
  maxText s t := if s ≤ t then t else s
  maxText_eq s t := by split <;> simp
  loadable t := -62135596800 ≤ t ∧ t < 253402300800
  indexable s := s.length ≤ 2000

/-- The instant of a datetime, in seconds. -/
def time (t : Aware) : Time := t.instant / 1000000

/-- `TRADE_EXECUTED`. -/
def tradeExecuted : PyStr := ofString "trade.executed"

section Python

variable (P : Platform)

/-- `str(payload.get(key))`. -/
def strField (payload : JsonObject) (key : String) : PyStr :=
  ((Json.get payload (ofString key)).getD .null).toStr P.printable

/-- The amount of the trade with two decimals; `none` for an exception that `parse_trade`
catches. -/
def parseAmount (payload : JsonObject) : Option Quantized :=
  (decimal? (strField P payload "amount")).bind quantizeCents

/-- The time of the trade, in the same way. -/
def parseExecutedAt (payload : JsonObject) : Option Datetime :=
  fromIsoformat P.otherIso (strField P payload "executed_at")

/-- The status text of a trade. -/
def description (payload : JsonObject) (side : PyStr) (negative : Bool) (cents : ℕ) : PyStr :=
  let symbol := ((Json.get payload (ofString "symbol")).getD (.str [])).toStr P.printable
  strip (side ++ ofString " $" ++ strCents negative cents ++ ofString " " ++ symbol)

/-- `parse_trade`. -/
def parseTrade (payload : JsonObject) : Except PyError (Option ParsedTrade) :=
  match Json.get payload (ofString "account"), Json.get payload (ofString "side") with
  | some (.str account), some (.str side) =>
    if account = [] ∨ (side ≠ ofString "buy" ∧ side ≠ ofString "sell") then .ok none
    else
      match parseAmount P payload, parseExecutedAt P payload with
      -- a `NaN` is not ordered, and the comparison is outside of the `try`
      | some .nan, some _ => .error .invalidOperation
      | some (.cents negative cents), some (.aware executedAt) =>
        if negative = true ∧ cents ≠ 0 then .ok none
        else .ok <| some
          { account
            delta := if side = ofString "buy" then cents else -cents
            executedAt := time executedAt
            description := description P payload side negative cents }
      | some (.cents _ _), some (.naive _) => .ok none
      | _, _ => .ok none
  | _, _ => .ok none

/-- The trade that a bank applies: an exception of `parse_trade` ends the request. -/
def trade? (payload : JsonObject) : Option ParsedTrade := (parseTrade P payload).toOption.join

end Python

section Sql

variable (P : Platform)

/-- `payload->>'key'`. -/
def textField (payload : JsonObject) (key : String) : Option PyStr :=
  (Json.get payload (ofString key)).bind (Json.jsonText P.composite)

/-- A row of `events` that the query aggregates. -/
structure LoggedTrade where
  account : PyStr
  whole : List ℕ
  fraction : List ℕ
  sells : Bool
  executedAt : Option PyStr

/-- The `WHERE` clause of the query on a payload, and what it reads of it. -/
def loggedTrade? (payload : JsonObject) : Option LoggedTrade := do
  let account ← textField P payload "account"
  let (whole, fraction) ← plainNumeral? (← textField P payload "amount")
  return { account, whole, fraction
           sells := textField P payload "side" = some (ofString "sell")
           executedAt := textField P payload "executed_at" }

namespace LoggedTrade

variable (t : LoggedTrade)

/-- `(payload->>'amount')::numeric` with the sign that the side gives it. -/
def amount : ℚ :=
  if t.sells then -numeralValue t.whole t.fraction else numeralValue t.whole t.fraction

/-- The cast to `numeric` does not overflow. -/
def castable : Bool :=
  (t.whole.dropWhile (· = 0)).length ≤ 131072 ∧ t.fraction.length ≤ 16383

end LoggedTrade

end Sql

/-! ## What a bank finds -/

section Found

variable {P : Platform}

/-- A value that spells a time with an offset is a string. -/
theorem exists_str_of_fromIsoformat {x : Json} {t : Aware}
    (h : fromIsoformat P.otherIso (x.toStr P.printable) = some (.aware t)) : ∃ s, x = .str s := by
  have hnumber : ¬ NumberChar (char 'T') := by
    unfold NumberChar
    decide
  have hbracket : asciiDigit? (char '[') = none ∧ asciiDigit? (codePoint 0x7B) = none := by decide
  have hwords : char 'T' ∉ ofString "None" ∧ char 'T' ∉ ofString "nan" ∧
      char 'T' ∉ ofString "inf" ∧ char 'T' ∉ ofString "-inf" := by decide
  unfold fromIsoformat at h
  cases hread : readIso? (x.toStr P.printable) with
  | none =>
    rw [hread] at h
    exact P.otherIso_toStr x t h
  | some t' =>
    obtain ⟨hmark, c, hc, hdigit⟩ := of_readIso? hread
    cases x with
    | str s => exact ⟨s, rfl⟩
    | null => exact absurd hmark hwords.1
    | bool b =>
      have hletters : asciiDigit? (char 'T') = none ∧ asciiDigit? (char 'F') = none := by decide
      cases b with
      | true =>
        obtain rfl : char 'T' = c := Option.some.inj hc
        simp [hletters.1] at hdigit
      | false =>
        obtain rfl : char 'F' = c := Option.some.inj hc
        simp [hletters.2] at hdigit
    | int n => exact absurd (numberChar_of_mem_ofInt hmark) hnumber
    | float x => exact absurd (JsonFloat.numberChar_of_mem_repr hmark) hnumber
    | infinity negative =>
      cases negative with
      | false => exact absurd hmark hwords.2.2.1
      | true => exact absurd hmark hwords.2.2.2
    | nan => exact absurd hmark hwords.2.1
    | arr items =>
      obtain rfl := Option.some.inj hc
      simp [hbracket.1] at hdigit
    | obj items =>
      obtain rfl := Option.some.inj hc
      simp [hbracket.2] at hdigit

theorem storable_of_sublist {s t : PyStr} (h : s.Sublist t) (ht : storable t = true) :
    storable s = true :=
  List.all_eq_true.2 fun c hc => List.all_eq_true.1 ht c (h.subset hc)

theorem storable_strip {s : PyStr} (h : storable s = true) : storable (strip s) = true :=
  storable_of_sublist ((List.rdropWhile_prefix _ _).sublist.trans (List.dropWhile_sublist _)) h

/-- **The status text of a trade** can be stored. -/
theorem storable_description (payload : Json.StoredObject) {side : PyStr}
    (hside : storable side = true) (negative : Bool) (cents : ℕ) :
    storable (description P payload.1 side negative cents) = true := by
  have hsymbol : storable (((Json.get payload.1 (ofString "symbol")).getD (.str [])).toStr
      P.printable) = true := by
    cases hget : Json.get payload.1 (ofString "symbol") with
    | none => rfl
    | some x => exact Json.storable_toStr P.storable_of_printable (payload.stored_of_get hget)
  have hcents : storable (strCents negative cents) = true := by
    refine Json.storable_of_numberChar fun c hc => ?_
    have hdigits : ∀ c ∈ PyStr.ofNat (cents / 100) ++
        char '.' :: (fixedDigits 10 2 cents).map digit, NumberChar c := by
      intro c hc
      rcases List.mem_append.1 hc with hc | hc
      · exact numberChar_of_mem_ofNat hc
      · rcases List.mem_cons.1 hc with rfl | hc
        · decide
        · obtain ⟨d, hd, rfl⟩ := List.mem_map.1 hc
          exact numberChar_digit (lt_of_mem_fixedDigits (by norm_num) hd)
    unfold strCents at hc
    dsimp only at hc
    split at hc
    · rcases List.mem_cons.1 hc with rfl | hc
      · decide
      · exact hdigits c hc
    · exact hdigits c hc
  have hliterals : storable (ofString " $") = true ∧ storable (ofString " ") = true := by decide
  refine storable_strip ?_
  rw [Json.storable_append, Json.storable_append, Json.storable_append, Json.storable_append, hside,
    hcents, hsymbol, hliterals.1, hliterals.2]
  rfl

end Found

end Hookit.Ledger
