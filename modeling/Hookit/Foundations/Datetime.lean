import Hookit.Foundations.Numeral

/-!
# Datetimes in text

A Python `datetime`: a wall-clock reading (`Wall`), with a UTC offset (`Aware`) or without one.

* `Aware.instant` is the point in time, in microseconds since the epoch.
* `Aware.isoformat t` is `t.isoformat()`.
* `fromIsoformat other s` is `datetime.fromisoformat(s)`. It reads the spellings that `isoformat`
  writes; the many other spellings that Python admits are left to the parameter `other`.
* `fromIsoformat_isoformat`: what is written is read back.
-/

namespace Foundations

open PyStr

/-! ## Values -/

/-- The days of a month. -/
def daysInMonth (year month : ℕ) : ℕ :=
  if month = 2 then if (year % 4 = 0 ∧ year % 100 ≠ 0) ∨ year % 400 = 0 then 29 else 28
  else if month = 4 ∨ month = 6 ∨ month = 9 ∨ month = 11 then 30
  else 31

/-- A wall-clock reading, not checked. -/
structure WallFields where
  year : ℕ
  month : ℕ
  day : ℕ
  hour : ℕ
  minute : ℕ
  second : ℕ
  microsecond : ℕ
  deriving DecidableEq

/-- The ranges that the constructor of `datetime` checks. -/
def WallFields.Valid (w : WallFields) : Prop :=
  1 ≤ w.year ∧ w.year ≤ 9999 ∧ 1 ≤ w.month ∧ w.month ≤ 12 ∧ 1 ≤ w.day ∧
    w.day ≤ daysInMonth w.year w.month ∧ w.hour < 24 ∧ w.minute < 60 ∧ w.second < 60 ∧
    w.microsecond < 1000000

instance (w : WallFields) : Decidable w.Valid := by
  unfold WallFields.Valid
  infer_instance

/-- A wall-clock reading. -/
abbrev Wall := {w : WallFields // w.Valid}

/-- A day, in microseconds. -/
def dayMicroseconds : ℕ := 86400000000

/-- A UTC offset, in microseconds: strictly within a day. -/
abbrev UtcOffset := {o : ℤ // o.natAbs < dayMicroseconds}

/-- A datetime with a UTC offset. -/
structure Aware where
  wall : Wall
  offset : UtcOffset
  deriving DecidableEq

/-- A datetime. -/
inductive Datetime
  | naive (wall : Wall)
  | aware (t : Aware)
  deriving DecidableEq

theorem valid_epoch : WallFields.Valid ⟨1970, 1, 1, 0, 0, 0, 0⟩ := by decide

theorem natAbs_zero_lt_day : (0 : ℤ).natAbs < dayMicroseconds := by decide

/-- `1970-01-01T00:00:00+00:00`. -/
def Aware.epoch : Aware := ⟨⟨_, valid_epoch⟩, ⟨0, natAbs_zero_lt_day⟩⟩

/-- The days from 0001-01-01 to the first of the month. -/
def daysBefore (year month : ℕ) : ℕ :=
  let y := year - 1
  y * 365 + y / 4 - y / 100 + y / 400 +
    ((List.range (month - 1)).map fun m => daysInMonth year (m + 1)).sum

/-- The wall-clock reading, in microseconds since 1970-01-01T00:00:00. -/
def Wall.microseconds (w : Wall) : ℤ :=
  let days : ℤ := daysBefore w.1.year w.1.month + (w.1.day - 1 : ℕ) - 719162
  ((days * 24 + w.1.hour) * 60 + w.1.minute) * 60000000 + w.1.second * 1000000 + w.1.microsecond

/-- The point in time. -/
def Aware.instant (t : Aware) : ℤ := t.wall.microseconds - t.offset.1

/-! ## Writing -/

/-- `n` in `k` decimal digits. -/
def padded (k n : ℕ) : PyStr := (fixedDigits 10 k n).map digit

/-- The fraction of a second, if there is any. -/
def fraction (microsecond : ℕ) : PyStr :=
  if microsecond = 0 then [] else char '.' :: padded 6 microsecond

/-- A date. -/
def isoDate (year month day : ℕ) : PyStr :=
  padded 4 year ++ char '-' :: (padded 2 month ++ char '-' :: padded 2 day)

/-- A time of day. -/
def isoTime (hour minute second microsecond : ℕ) : PyStr :=
  padded 2 hour ++ char ':' :: (padded 2 minute ++ char ':' :: (padded 2 second ++
    fraction microsecond))

/-- A UTC offset. -/
def isoOffset (o : ℤ) : PyStr :=
  let n := o.natAbs
  let seconds :=
    if n % 60000000 = 0 then []
    else char ':' :: (padded 2 (n / 1000000 % 60) ++ fraction (n % 1000000))
  (if o < 0 then char '-' else char '+') :: (padded 2 (n / 3600000000) ++
    char ':' :: (padded 2 (n / 60000000 % 60) ++ seconds))

/-- `t.isoformat()`. -/
def Aware.isoformat (t : Aware) : PyStr :=
  let w := t.wall.1
  isoDate w.year w.month w.day ++ char 'T' ::
    (isoTime w.hour w.minute w.second w.microsecond ++ isoOffset t.offset.1)

/-! ## Reading -/

/-- Take `k` decimal digits off a string. -/
def takeNat? (k : ℕ) (s : PyStr) : Option (ℕ × PyStr) :=
  if (s.take k).length = k then
    ((s.take k).mapM asciiDigit?).map fun digits => (digitsValue 10 digits, s.drop k)
  else none

/-- Take a character off a string. -/
def expect? (c : Char) (s : PyStr) : Option PyStr :=
  if s.head? = some (char c) then some s.tail else none

/-- Take a fraction of a second off a string, if there is one. -/
def takeFraction? (s : PyStr) : Option (ℕ × PyStr) :=
  if s.head? = some (char '.') then takeNat? 6 s.tail else some (0, s)

/-- Read a date. -/
def takeDate? (s : PyStr) : Option ((ℕ × ℕ × ℕ) × PyStr) := do
  let (year, s) ← takeNat? 4 s
  let (month, s) ← takeNat? 2 (← expect? '-' s)
  let (day, s) ← takeNat? 2 (← expect? '-' s)
  return ((year, month, day), s)

/-- Read a time of day. -/
def takeTime? (s : PyStr) : Option ((ℕ × ℕ × ℕ × ℕ) × PyStr) := do
  let (hour, s) ← takeNat? 2 s
  let (minute, s) ← takeNat? 2 (← expect? ':' s)
  let (second, s) ← takeNat? 2 (← expect? ':' s)
  let (microsecond, s) ← takeFraction? s
  return ((hour, minute, second, microsecond), s)

/-- Read the seconds of an offset, if there are any. -/
def takeSeconds? (s : PyStr) : Option ((ℕ × ℕ) × PyStr) :=
  if s.head? = some (char ':') then do
    let (second, s) ← takeNat? 2 s.tail
    let (microsecond, s) ← takeFraction? s
    return ((second, microsecond), s)
  else some ((0, 0), s)

/-- Read an unsigned offset to the end of the string. -/
def takeOffset? (s : PyStr) : Option ℕ := do
  let (hour, s) ← takeNat? 2 s
  let (minute, s) ← takeNat? 2 (← expect? ':' s)
  let ((second, microsecond), s) ← takeSeconds? s
  if s = [] ∧ minute < 60 ∧ second < 60 then
    return ((hour * 60 + minute) * 60 + second) * 1000000 + microsecond
  else none

/-- Read a signed offset to the end of the string. -/
def readOffset? (s : PyStr) : Option UtcOffset := do
  let n ← takeOffset? s.tail
  let o : ℤ := if s.head? = some (char '-') then -(n : ℤ) else n
  if h : o.natAbs < dayMicroseconds then return ⟨o, h⟩ else none

/-- The wall-clock reading with the given fields, if they are in range. -/
def Wall.ofFields? (w : WallFields) : Option Wall := if h : w.Valid then some ⟨w, h⟩ else none

/-- Read what `isoformat` writes. -/
def readIso? (s : PyStr) : Option Datetime := do
  let ((year, month, day), s) ← takeDate? s
  let ((hour, minute, second, microsecond), s) ← takeTime? (← expect? 'T' s)
  let wall ← Wall.ofFields? ⟨year, month, day, hour, minute, second, microsecond⟩
  if s = [] then return .naive wall
  else if s.head? = some (char '+') ∨ s.head? = some (char '-') then
    return .aware ⟨wall, ← readOffset? s⟩
  else none

/-- `datetime.fromisoformat(s)`, `none` where it raises `ValueError`. -/
def fromIsoformat (other : PyStr → Option Datetime) (s : PyStr) : Option Datetime :=
  readIso? s <|> other s

/-! ## What is read -/

/-- What comes after the digits, and the first of them. -/
theorem of_takeNat? {k n : ℕ} {s rest : PyStr} (h : takeNat? (k + 1) s = some (n, rest)) :
    (∀ c ∈ rest, c ∈ s) ∧ ∃ c ∈ s.head?, (asciiDigit? c).isSome = true := by
  unfold takeNat? at h
  split at h
  · next hlength =>
    obtain ⟨digits, hdigits, heq⟩ := Option.map_eq_some_iff.1 h
    obtain ⟨-, rfl⟩ := Prod.mk.inj heq
    refine ⟨fun c hc => List.mem_of_mem_drop hc, ?_⟩
    cases s with
    | nil => simp at hlength
    | cons c s =>
      rw [List.take_succ_cons, List.mapM_cons] at hdigits
      obtain ⟨d, hd, -⟩ := Option.bind_eq_some_iff.1 hdigits
      exact ⟨c, rfl, by rw [hd]; rfl⟩
  · cases h

theorem of_expect? {c : Char} {s rest : PyStr} (h : expect? c s = some rest) :
    char c ∈ s ∧ ∀ d ∈ rest, d ∈ s := by
  unfold expect? at h
  split at h
  · next hhead =>
    obtain rfl := Option.some.inj h
    exact ⟨List.mem_of_mem_head? hhead, fun d hd => List.mem_of_mem_tail hd⟩
  · cases h

/-- A text that is read starts with a digit and has a `T`. -/
theorem of_readIso? {s : PyStr} {t : Datetime} (h : readIso? s = some t) :
    char 'T' ∈ s ∧ ∃ c ∈ s.head?, (asciiDigit? c).isSome = true := by
  obtain ⟨⟨date, s₁⟩, hdate, h⟩ := Option.bind_eq_some_iff.1 h
  obtain ⟨s₂, hmark, -⟩ := Option.bind_eq_some_iff.1 h
  obtain ⟨⟨year, r₁⟩, hyear, hdate⟩ := Option.bind_eq_some_iff.1 hdate
  obtain ⟨r₂, hdash, hdate⟩ := Option.bind_eq_some_iff.1 hdate
  obtain ⟨⟨month, r₃⟩, hmonth, hdate⟩ := Option.bind_eq_some_iff.1 hdate
  obtain ⟨r₄, hdash', hdate⟩ := Option.bind_eq_some_iff.1 hdate
  obtain ⟨⟨day, r₅⟩, hday, heq⟩ := Option.bind_eq_some_iff.1 hdate
  obtain ⟨-, rfl⟩ := Prod.mk.inj (Option.some.inj heq)
  have hrest : ∀ c ∈ r₅, c ∈ s := fun c hc => (of_takeNat? hyear).1 c <| (of_expect? hdash).2 c <|
    (of_takeNat? hmonth).1 c <| (of_expect? hdash').2 c <| (of_takeNat? hday).1 c hc
  exact ⟨hrest _ (of_expect? hmark).1, (of_takeNat? hyear).2⟩

/-! ## What is written is read back -/

theorem takeNat?_padded {k n : ℕ} (h : n < 10 ^ k) (s : PyStr) :
    takeNat? k (padded k n ++ s) = some (n, s) := by
  have hlength : (padded k n).length = k := by simp [padded]
  have htake : (padded k n ++ s).take k = padded k n := by
    rw [List.take_append_of_le_length hlength.ge, List.take_of_length_le hlength.le]
  have hdrop : (padded k n ++ s).drop k = s := by
    rw [List.drop_append_of_le_length hlength.ge, List.drop_of_length_le hlength.le, List.nil_append]
  have hread : (padded k n).mapM asciiDigit? = some (fixedDigits 10 k n) :=
    mapM_digits (fun d => asciiDigit?_digit) fun d => lt_of_mem_fixedDigits (by norm_num)
  rw [takeNat?, htake, hdrop, if_pos hlength, hread, Option.map_some, digitsValue_fixedDigits,
    Nat.mod_eq_of_lt h]

theorem expect?_cons (c : Char) (s : PyStr) : expect? c (char c :: s) = some s := by
  simp [expect?]

/-- A string that starts with none of the characters of a time. -/
def Ends (s : PyStr) : Prop := s.head? ≠ some (char '.') ∧ s.head? ≠ some (char ':')

theorem takeFraction?_fraction {u : ℕ} (hu : u < 1000000) {s : PyStr} (hs : Ends s) :
    takeFraction? (fraction u ++ s) = some (u, s) := by
  unfold takeFraction? fraction
  split_ifs with h h' h'
  · exact absurd (by simpa [h] using h') hs.1
  · simp [h]
  · rw [List.cons_append, List.tail_cons]
    exact takeNat?_padded (by omega) s
  · exact absurd rfl h'

theorem takeDate?_isoDate {year month day : ℕ} (hyear : year < 10000) (hmonth : month < 100)
    (hday : day < 100) (s : PyStr) :
    takeDate? (isoDate year month day ++ s) = some ((year, month, day), s) := by
  simp only [isoDate, List.append_assoc, List.cons_append, takeDate?]
  rw [takeNat?_padded hyear]
  simp only [Option.bind_eq_bind, Option.bind_some, expect?_cons]
  rw [takeNat?_padded hmonth]
  simp only [Option.bind_some, expect?_cons]
  rw [takeNat?_padded hday]
  rfl

theorem takeTime?_isoTime {hour minute second u : ℕ} (hhour : hour < 100) (hminute : minute < 100)
    (hsecond : second < 100) (hu : u < 1000000) {s : PyStr} (hs : Ends s) :
    takeTime? (isoTime hour minute second u ++ s) = some ((hour, minute, second, u), s) := by
  simp only [isoTime, List.append_assoc, List.cons_append, takeTime?]
  rw [takeNat?_padded hhour]
  simp only [Option.bind_eq_bind, Option.bind_some, expect?_cons]
  rw [takeNat?_padded hminute]
  simp only [Option.bind_some, expect?_cons]
  rw [takeNat?_padded hsecond]
  simp only [Option.bind_some]
  rw [takeFraction?_fraction hu hs]
  rfl

theorem ends_nil : Ends [] := by simp [Ends]

theorem takeSeconds?_nil : takeSeconds? [] = some ((0, 0), []) := rfl

theorem takeSeconds?_seconds {second u : ℕ} (hsecond : second < 100) (hu : u < 1000000) :
    takeSeconds? (char ':' :: (padded 2 second ++ fraction u)) = some ((second, u), []) := by
  have hfraction := takeFraction?_fraction hu ends_nil
  rw [List.append_nil] at hfraction
  rw [takeSeconds?, List.head?_cons, if_pos rfl, List.tail_cons, takeNat?_padded hsecond]
  simp only [Option.bind_eq_bind, Option.bind_some, hfraction]
  rfl

theorem takeOffset?_isoOffset {o : ℤ} (ho : o.natAbs < dayMicroseconds) :
    takeOffset? (isoOffset o).tail = some o.natAbs := by
  unfold dayMicroseconds at ho
  have hhour : o.natAbs / 3600000000 < 10 ^ 2 := by omega
  have hminute : o.natAbs / 60000000 % 60 < 10 ^ 2 := by omega
  simp only [isoOffset, List.tail_cons, takeOffset?]
  rw [takeNat?_padded hhour]
  simp only [Option.bind_eq_bind, Option.bind_some, expect?_cons]
  rw [takeNat?_padded hminute]
  simp only [Option.bind_some]
  split_ifs with hseconds
  · rw [takeSeconds?_nil]
    simp only [Option.bind_some]
    rw [if_pos ⟨trivial, by omega, by omega⟩]
    exact congrArg some (by omega)
  · rw [takeSeconds?_seconds (by omega) (by omega)]
    simp only [Option.bind_some]
    rw [if_pos ⟨trivial, by omega, by omega⟩]
    exact congrArg some (by omega)

theorem head?_isoOffset (o : ℤ) :
    (isoOffset o).head? = some (if o < 0 then char '-' else char '+') :=
  rfl

theorem readOffset?_isoOffset (o : UtcOffset) : readOffset? (isoOffset o.1) = some o := by
  have hsign : ((isoOffset o.1).head? = some (char '-')) ↔ o.1 < 0 := by
    rw [head?_isoOffset]
    split_ifs with h
    · simp [h]
    · simp only [Option.some.injEq, h, iff_false]
      decide
  have hvalue : (if (isoOffset o.1).head? = some (char '-') then -(o.1.natAbs : ℤ)
      else (o.1.natAbs : ℤ)) = o.1 := by
    simp only [hsign]
    split_ifs <;> omega
  simp only [readOffset?, takeOffset?_isoOffset o.2, Option.bind_eq_bind, Option.bind_some, hvalue]
  rw [dif_pos o.2]
  rfl

/-- The code points of a number, a sign or a separator. -/
def IsoChar (c : CodePoint) : Prop := (0x2B ≤ c.val ∧ c.val ≤ 0x3A) ∨ c.val = 0x54

theorem isoChar_of_mem_padded {k n : ℕ} {c : CodePoint} (h : c ∈ padded k n) : IsoChar c := by
  obtain ⟨d, hd, rfl⟩ := List.mem_map.1 h
  have hlt := lt_of_mem_fixedDigits (by norm_num) hd
  left
  rw [digit_val hlt]
  omega

theorem isoChar_of_mem_fraction {u : ℕ} {c : CodePoint} (h : c ∈ fraction u) : IsoChar c := by
  unfold fraction at h
  split at h
  · cases h
  · rcases List.mem_cons.1 h with rfl | h
    · exact .inl (by decide)
    · exact isoChar_of_mem_padded h

/-- What `isoformat` writes. -/
theorem isoChar_of_mem_isoformat {t : Aware} {c : CodePoint} (h : c ∈ t.isoformat) : IsoChar c := by
  have hdash : IsoChar (char '-') := .inl (by decide)
  have hcolon : IsoChar (char ':') := .inl (by decide)
  have hplus : IsoChar (char '+') := .inl (by decide)
  have hT : IsoChar (char 'T') := .inr (by decide)
  simp only [Aware.isoformat, isoDate, isoTime, isoOffset, List.mem_append, List.mem_cons] at h
  rcases h with ((h | rfl | h | rfl | h) | rfl | (h | rfl | h | rfl | h | h) | h)
  all_goals first | assumption | exact isoChar_of_mem_padded h | exact isoChar_of_mem_fraction h | skip
  rcases h with h | h | rfl | h | h
  · split at h <;> exact h ▸ ‹_›
  · exact isoChar_of_mem_padded h
  · exact hcolon
  · exact isoChar_of_mem_padded h
  · split at h
    · cases h
    · simp only [List.mem_cons, List.mem_append] at h
      rcases h with rfl | h | h
      · exact hcolon
      · exact isoChar_of_mem_padded h
      · exact isoChar_of_mem_fraction h

/-- **`fromisoformat` reads back what `isoformat` writes.** -/
theorem fromIsoformat_isoformat (other : PyStr → Option Datetime) (t : Aware) :
    fromIsoformat other t.isoformat = some (.aware t) := by
  obtain ⟨⟨w, hw⟩, o⟩ := t
  have hvalid := hw
  obtain ⟨-, hyear, -, hmonth, -, hday, hhour, hminute, hsecond, hu⟩ := hw
  have hdays : daysInMonth w.year w.month ≤ 31 := by
    unfold daysInMonth
    split_ifs <;> omega
  have hends : Ends (isoOffset o.1) := by
    rw [Ends, head?_isoOffset]
    split_ifs <;> decide
  have hne : isoOffset o.1 ≠ [] := by simp [isoOffset]
  have hsign : (isoOffset o.1).head? = some (char '+') ∨ (isoOffset o.1).head? = some (char '-') := by
    rw [head?_isoOffset]
    split_ifs
    · exact .inr rfl
    · exact .inl rfl
  have hread : readIso? (Aware.isoformat ⟨⟨w, hvalid⟩, o⟩) = some (.aware ⟨⟨w, hvalid⟩, o⟩) := by
    unfold readIso? Aware.isoformat
    dsimp only
    rw [takeDate?_isoDate (by omega) (by omega) (by omega)]
    simp only [Option.bind_eq_bind, Option.bind_some, expect?_cons]
    rw [takeTime?_isoTime (by omega) (by omega) (by omega) hu hends]
    simp only [Option.bind_some, Wall.ofFields?]
    rw [dif_pos hvalid]
    simp only [Option.bind_some]
    rw [if_neg hne, if_pos hsign, readOffset?_isoOffset]
    rfl
  rw [fromIsoformat, hread]
  rfl

end Foundations
