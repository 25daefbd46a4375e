import Hookit.Foundations.FloatText

/-!
# What `json.dumps` writes can be read back in one way

`dumps_injective`: two documents in well-formed Unicode that `json.dumps` writes alike with compact
separators are the same document. The induction over the documents needs more: a document that is
followed by a closing bracket or a separator is told from what follows (`dumps_append_inj`).

* A string ends at its first quotation mark that is not escaped: `readChar` takes one character off
  an escaped text, and no escape starts with the quotation mark.
* A number, a boolean or `null` ends at the first character that such a value never has
  (`append_inj_of_forall`), and its text tells its kind. For a `float` the text tells the decimal.
-/

namespace Foundations

open PyStr

namespace Json

/-! ## Strings -/

/-- Well-formed Unicode: no surrogate. -/
def wellFormedText (s : PyStr) : Bool := s.all fun c => !isSurrogate c

/-- The number of four hexadecimal digits, and what follows them. -/
def readHex (s : PyStr) : Option (ℕ × PyStr) :=
  ((s.take 4).mapM hexDigit?).map fun digits => (digitsValue 16 digits, s.drop 4)

/-- The character behind a backslash and a letter. -/
def unescape (c : CodePoint) : CodePoint :=
  if c = char 'n' then char '\n'
  else if c = char 'r' then char '\r'
  else if c = char 't' then char '\t'
  else if c = char 'f' then codePoint 0x0C
  else if c = char 'b' then codePoint 0x08
  else c

/-- The first character that an escaped text stands for, and what follows it. -/
def readChar : PyStr → Option (CodePoint × PyStr)
  | [] => none
  | c :: s =>
    if c ≠ backslash then some (c, s)
    else match s with
      | [] => none
      | d :: s =>
        if d ≠ char 'u' then some (unescape d, s)
        else (readHex s).bind fun (n, s) =>
          if n < 0xD800 ∨ 0xDC00 ≤ n then some (codePoint n, s)
          -- the first of a surrogate pair
          else (readHex (s.drop 2)).map fun (m, s) =>
            (codePoint (0x10000 + (n - 0xD800) * 0x400 + (m - 0xDC00)), s)

theorem readHex_append {n : ℕ} (h : n < 0x10000) (u : PyStr) :
    readHex ((fixedDigits 16 4 n).map hexDigit ++ u) = some (n, u) := by
  have hlength : ((fixedDigits 16 4 n).map hexDigit).length = 4 := by simp
  have hdigits : ((fixedDigits 16 4 n).map hexDigit).mapM hexDigit? = some (fixedDigits 16 4 n) :=
    mapM_digits (fun d => hexDigit?_hexDigit) fun d => lt_of_mem_fixedDigits (by norm_num)
  rw [readHex, List.take_left' hlength, List.drop_left' hlength, hdigits, Option.map_some,
    digitsValue_fixedDigits, Nat.mod_eq_of_lt (by simpa using h)]

theorem readChar_escapeUnit {n : ℕ} (h : n < 0x10000) (hn : n < 0xD800 ∨ 0xDC00 ≤ n) (u : PyStr) :
    readChar (escapeUnit n ++ u) = some (codePoint n, u) := by
  simp only [escapeUnit, List.cons_append, readChar, ne_eq, not_true_eq_false, if_false,
    readHex_append h, Option.bind_some, if_pos hn]

theorem readChar_escapePair {n m : ℕ} (hn : n < 0x400) (hm : m < 0x400) (u : PyStr) :
    readChar (escapeUnit (0xD800 + n) ++ escapeUnit (0xDC00 + m) ++ u) =
      some (codePoint (0x10000 + n * 0x400 + m), u) := by
  have hfirst : ¬ (0xD800 + n < 0xD800 ∨ 0xDC00 ≤ 0xD800 + n) := by omega
  have hdrop : ∀ s : PyStr, (backslash :: char 'u' :: s).drop 2 = s := fun _ => rfl
  simp only [escapeUnit, List.cons_append, List.append_assoc, readChar, ne_eq, not_true_eq_false,
    if_false, readHex_append (show 0xD800 + n < 0x10000 by omega), Option.bind_some, if_neg hfirst,
    hdrop, readHex_append (show 0xDC00 + m < 0x10000 by omega), Option.map_some,
    Nat.add_sub_cancel_left]

theorem codePoint_val_eq (c : CodePoint) {n : ℕ} (h : n = c.val) : codePoint n = c := by
  subst h
  exact Fin.ext (Nat.mod_eq_of_lt c.isLt)

/-- **An escaped character is read back.** -/
theorem readChar_escapeChar {c : CodePoint} (hc : isSurrogate c = false) (u : PyStr) :
    readChar (escapeChar c ++ u) = some (c, u) := by
  have hlt := c.isLt
  simp only [isSurrogate, decide_eq_false_iff_not] at hc
  have hletter : ∀ (d : CodePoint) (s : PyStr), d ≠ char 'u' →
      readChar (backslash :: d :: s) = some (unescape d, s) := by
    intro d s hd
    simp only [readChar, ne_eq, not_true_eq_false, if_false, hd, not_false_eq_true, if_true]
  unfold escapeChar
  split_ifs with h₁ h₂ h₃ h₄ h₅ h₆ h₇ h₈ h₉
  · subst h₁
    exact hletter quoteMark u (by decide)
  · subst h₂
    exact hletter backslash u (by decide)
  · subst h₃
    exact hletter (char 'n') u (by decide)
  · subst h₄
    exact hletter (char 'r') u (by decide)
  · subst h₅
    exact hletter (char 't') u (by decide)
  · rw [← codePoint_val_eq c h₆.symm]
    exact hletter (char 'f') u (by decide)
  · rw [← codePoint_val_eq c h₇.symm]
    exact hletter (char 'b') u (by decide)
  · simp only [List.cons_append, List.nil_append, readChar, ne_eq, h₂, not_false_eq_true, if_true]
  · rw [readChar_escapeUnit h₉ (by omega), codePoint_val_eq c rfl]
  · rw [readChar_escapePair (by omega) (Nat.mod_lt _ (by norm_num)), codePoint_val_eq c (by omega)]

/-- No escape starts with the quotation mark. -/
theorem exists_escapeChar (c : CodePoint) : ∃ d s, escapeChar c = d :: s ∧ d ≠ quoteMark := by
  have hslash : backslash ≠ quoteMark := by decide
  unfold escapeChar
  split_ifs with h₁
  any_goals exact ⟨backslash, _, rfl, hslash⟩
  exact ⟨c, [], rfl, h₁⟩

/-- A string is told from what follows its closing quotation mark. -/
theorem escape_append_inj : ∀ {s t u v : PyStr}, wellFormedText s = true → wellFormedText t = true →
    s.flatMap escapeChar ++ quoteMark :: u = t.flatMap escapeChar ++ quoteMark :: v → s = t ∧ u = v
  | [], [], _, _, _, _, h => ⟨rfl, (List.cons.inj h).2⟩
  | [], d :: t, u, v, _, _, h => by
    obtain ⟨e, w, he, hne⟩ := exists_escapeChar d
    rw [List.flatMap_cons, he] at h
    exact absurd (List.cons.inj h).1.symm hne
  | c :: s, [], u, v, _, _, h => by
    obtain ⟨e, w, he, hne⟩ := exists_escapeChar c
    rw [List.flatMap_cons, he] at h
    exact absurd (List.cons.inj h).1 hne
  | c :: s, d :: t, u, v, hs, ht, h => by
    simp only [wellFormedText, List.all_cons, Bool.and_eq_true, Bool.not_eq_true'] at hs ht
    have hread := congrArg readChar h
    rw [List.flatMap_cons, List.flatMap_cons, List.append_assoc, List.append_assoc,
      readChar_escapeChar hs.1, readChar_escapeChar ht.1] at hread
    obtain ⟨rfl, hrest⟩ := Prod.mk.inj (Option.some.inj hread)
    obtain ⟨rfl, rfl⟩ := escape_append_inj hs.2 ht.2 hrest
    exact ⟨rfl, rfl⟩

theorem quote_append_inj {s t u v : PyStr} (hs : wellFormedText s = true)
    (ht : wellFormedText t = true) (h : quote s ++ u = quote t ++ v) : s = t ∧ u = v := by
  refine escape_append_inj hs ht ?_
  simpa [quote] using h

/-! ## Values that are not strings, arrays or objects -/

/-- `json.dumps(doc, separators=(",", ":"))`. -/
abbrev compact : Json → PyStr := dumps (ofString ",") (ofString ":")

abbrev compactItems : List Json → PyStr := dumpsItems (ofString ",") (ofString ":")

abbrev compactFields : List (PyStr × Json) → PyStr := dumpsFields (ofString ",") (ofString ":")

/-- The characters that end a value, or start a string, an array or an object. -/
def IsMark (c : CodePoint) : Prop :=
  c.val = 0x22 ∨ c.val = 0x2C ∨ c.val = 0x5B ∨ c.val = 0x5D ∨ c.val = 0x7B ∨ c.val = 0x7D

instance (c : CodePoint) : Decidable (IsMark c) := inferInstanceAs (Decidable (_ ∨ _))

/-- The mark that the value starts with. -/
def mark : Json → Option CodePoint
  | str _ => some quoteMark
  | arr _ => some (char '[')
  | obj _ => some (codePoint 0x7B)
  | null | bool _ | int _ | float _ | infinity _ | nan => none

/-- A value without a mark is a number or one of six words. -/
theorem cases_of_mark {x : Json} (h : mark x = none) : (∃ n, x = int n) ∨ (∃ f, x = float f) ∨
    x = null ∨ x = bool true ∨ x = bool false ∨ x = infinity true ∨ x = infinity false ∨ x = nan := by
  cases x with
  | str | arr | obj => cases h
  | bool b => cases b <;> simp
  | infinity negative => cases negative <;> simp
  | _ => simp

theorem not_isMark_of_numberChar {c : CodePoint} (h : NumberChar c) : ¬ IsMark c := by
  unfold NumberChar at h
  unfold IsMark
  omega

theorem numberChar_of_mem_int {n : JsonInt} {c : CodePoint} (hc : c ∈ compact (int n)) :
    NumberChar c :=
  numberChar_of_mem_ofInt (by simpa only [compact, dumps] using hc)

theorem numberChar_of_mem_float {f : JsonFloat} {c : CodePoint} (hc : c ∈ compact (float f)) :
    NumberChar c :=
  JsonFloat.numberChar_of_mem_repr (by simpa only [compact, dumps] using hc)

theorem not_isMark_of_mem {x : Json} (hx : mark x = none) {c : CodePoint} (hc : c ∈ compact x) :
    ¬ IsMark c := by
  have hwords : ∀ s ∈ ["null", "true", "false", "-Infinity", "Infinity", "NaN"],
      ((ofString s).all fun d => !decide (IsMark d)) = true := by
    decide
  have hword : ∀ s ∈ ["null", "true", "false", "-Infinity", "Infinity", "NaN"],
      ∀ d ∈ ofString s, ¬ IsMark d := by
    intro s hs d hd
    simpa using List.all_eq_true.1 (hwords s hs) d hd
  rcases cases_of_mark hx with ⟨n, rfl⟩ | ⟨f, rfl⟩ | rfl | rfl | rfl | rfl | rfl | rfl
  · exact not_isMark_of_numberChar (numberChar_of_mem_int hc)
  · exact not_isMark_of_numberChar (numberChar_of_mem_float hc)
  · exact hword "null" (by simp) c hc
  · exact hword "true" (by simp) c hc
  · exact hword "false" (by simp) c hc
  · exact hword "-Infinity" (by simp) c hc
  · exact hword "Infinity" (by simp) c hc
  · exact hword "NaN" (by simp) c hc

/-- The six words have a letter that no number has. -/
theorem exists_letter {x : Json} (h : x = null ∨ x = bool true ∨ x = bool false ∨
    x = infinity true ∨ x = infinity false ∨ x = nan) : ∃ c ∈ compact x, ¬ NumberChar c := by
  rcases h with rfl | rfl | rfl | rfl | rfl | rfl
  · exact ⟨char 'n', by decide, by decide⟩
  · exact ⟨char 't', by decide, by decide⟩
  · exact ⟨char 'f', by decide, by decide⟩
  · exact ⟨char 'I', by decide, by decide⟩
  · exact ⟨char 'I', by decide, by decide⟩
  · exact ⟨char 'N', by decide, by decide⟩

/-- The text tells the value. -/
theorem eq_of_compact_eq {x y : Json} (hx : mark x = none) (hy : mark y = none)
    (h : compact x = compact y) : x = y := by
  have hnumber : ∀ {a b : Json}, (∀ c ∈ compact a, NumberChar c) →
      (∃ c ∈ compact b, ¬ NumberChar c) → compact a ≠ compact b := by
    rintro a b ha ⟨c, hc, hb⟩ heq
    exact hb (ha c (heq ▸ hc))
  have hfloat : ∀ (n : JsonInt) (f : JsonFloat), compact (int n) ≠ compact (float f) := by
    intro n f heq
    have hint : ∀ c ∈ compact (float f), c.val = 0x2D ∨ (0x30 ≤ c.val ∧ c.val ≤ 0x39) := by
      intro c hc
      rw [← heq] at hc
      exact val_mem_ofInt (by simpa only [compact, dumps] using hc)
    simp only [compact, dumps] at hint
    rcases f.mem_repr with hmem | hmem
    · exact absurd (hint _ hmem) (by decide)
    · exact absurd (hint _ hmem) (by decide)
  rcases cases_of_mark hx with ⟨n, rfl⟩ | ⟨f, rfl⟩ | hx <;>
    rcases cases_of_mark hy with ⟨m, rfl⟩ | ⟨g, rfl⟩ | hy
  · simp only [compact, dumps] at h
    rw [Subtype.ext (ofInt_injective h)]
  · exact absurd h (hfloat n g)
  · exact absurd h (hnumber (fun c => numberChar_of_mem_int) (exists_letter hy))
  · exact absurd h.symm (hfloat m f)
  · simp only [compact, dumps] at h
    rw [JsonFloat.repr_injective h]
  · exact absurd h (hnumber (fun c => numberChar_of_mem_float) (exists_letter hy))
  · exact absurd h.symm (hnumber (fun c => numberChar_of_mem_int) (exists_letter hx))
  · exact absurd h.symm (hnumber (fun c => numberChar_of_mem_float) (exists_letter hx))
  · rcases hx with rfl | rfl | rfl | rfl | rfl | rfl <;>
      rcases hy with rfl | rfl | rfl | rfl | rfl | rfl <;>
      first | rfl | exact absurd h (by decide)

/-! ## Documents -/

mutual

/-- Strings and keys are well-formed Unicode, and the keys of an object are distinct. -/
def wellFormed : Json → Bool
  | null | bool _ | int _ | float _ | infinity _ | nan => true
  | str s => wellFormedText s
  | arr items => wellFormedItems items
  | obj items => (items.map Prod.fst).Nodup && wellFormedFields items

def wellFormedItems : List Json → Bool
  | [] => true
  | x :: items => wellFormed x && wellFormedItems items

def wellFormedFields : List (PyStr × Json) → Bool
  | [] => true
  | (k, x) :: items => wellFormedText k && wellFormed x && wellFormedFields items

end

/-- The text starts with a mark, if it is not empty. -/
def Ends (u : PyStr) : Prop := ∀ c ∈ u.head?, IsMark c

/-- The first character tells whether there is a mark, and which. -/
theorem exists_compact_eq (x : Json) :
    ∃ c s, compact x = c :: s ∧ mark x = if IsMark c then some c else none := by
  have hmarks : IsMark quoteMark ∧ IsMark (char '[') ∧ IsMark (codePoint 0x7B) := by decide
  cases hx : mark x with
  | some c =>
    cases x with
    | str s =>
      exact ⟨quoteMark, s.flatMap escapeChar ++ [quoteMark], by simp only [compact, dumps, quote],
        by rw [if_pos hmarks.1, ← hx]; rfl⟩
    | arr items =>
      exact ⟨char '[', compactItems items, by simp only [compact, dumps],
        by rw [if_pos hmarks.2.1, ← hx]; rfl⟩
    | obj items =>
      exact ⟨codePoint 0x7B, compactFields items, by simp only [compact, dumps],
        by rw [if_pos hmarks.2.2, ← hx]; rfl⟩
    | _ => cases hx
  | none =>
    cases htext : compact x with
    | nil =>
      exfalso
      rcases cases_of_mark hx with ⟨n, rfl⟩ | ⟨f, rfl⟩ | hword
      · simp only [compact, dumps] at htext
        exact ofInt_ne_nil _ htext
      · simp only [compact, dumps] at htext
        have hmem := f.mem_repr
        rw [htext] at hmem
        simp at hmem
      · obtain ⟨c, hc, -⟩ := exists_letter hword
        rw [htext] at hc
        cases hc
    | cons c s =>
      have hc : ¬ IsMark c := not_isMark_of_mem hx (htext ▸ List.mem_cons_self)
      exact ⟨c, s, rfl, by rw [if_neg hc]⟩

theorem mark_eq_of_append {x y : Json} {u v : PyStr} (h : compact x ++ u = compact y ++ v) :
    mark x = mark y := by
  obtain ⟨c, s, hx, hmark⟩ := exists_compact_eq x
  obtain ⟨d, t, hy, hmark'⟩ := exists_compact_eq y
  rw [hx, hy] at h
  rw [hmark, hmark', (List.cons.inj h).1]

/-- No value starts with a closing bracket. -/
theorem compact_append_ne {x : Json} {c : CodePoint} {u v : PyStr} (hmark : IsMark c)
    (hne : c ≠ quoteMark ∧ c ≠ char '[' ∧ c ≠ codePoint 0x7B) : compact x ++ u ≠ c :: v := by
  intro h
  obtain ⟨d, s, hx, hd⟩ := exists_compact_eq x
  rw [hx] at h
  obtain ⟨rfl, -⟩ := List.cons.inj h
  rw [if_pos hmark] at hd
  cases x with
  | str s => exact hne.1 (Option.some.inj hd).symm
  | arr items => exact hne.2.1 (Option.some.inj hd).symm
  | obj items => exact hne.2.2 (Option.some.inj hd).symm
  | _ => cases hd

theorem eq_of_mark_append {x y : Json} {u v : PyStr} (hx : mark x = none) (hu : Ends u) (hv : Ends v)
    (h : compact x ++ u = compact y ++ v) : x = y ∧ u = v := by
  have hy : mark y = none := by rw [← mark_eq_of_append h, hx]
  obtain ⟨htext, hrest⟩ := append_inj_of_forall (p := fun c => ¬ IsMark c)
    (fun c => not_isMark_of_mem hx) (fun c => not_isMark_of_mem hy)
    (fun c hc hmark => hmark (hu c hc)) (fun c hc hmark => hmark (hv c hc)) h
  exact ⟨eq_of_compact_eq hx hy htext, hrest⟩

/-- What follows an item. -/
def restOfItems : List Json → PyStr
  | [] => [char ']']
  | x :: items => char ',' :: compactItems (x :: items)

theorem compactItems_cons (x : Json) (items : List Json) :
    compactItems (x :: items) = compact x ++ restOfItems items := by
  cases items with
  | nil => simp only [compactItems, dumpsItems, restOfItems]
  | cons y items =>
    simp only [compactItems, dumpsItems, restOfItems, List.append_assoc]
    rfl

theorem ends_cons {c : CodePoint} (hc : IsMark c) (u : PyStr) : Ends (c :: u) := by
  intro d hd
  obtain rfl := Option.some.inj hd
  exact hc

theorem ends_restOfItems (items : List Json) (u : PyStr) : Ends (restOfItems items ++ u) := by
  cases items with
  | nil => exact ends_cons (by decide) u
  | cons x items => exact ends_cons (by decide) _

/-- What follows the value of a field. -/
def restOfFields : List (PyStr × Json) → PyStr
  | [] => [codePoint 0x7D]
  | item :: items => char ',' :: compactFields (item :: items)

theorem compactFields_cons (k : PyStr) (x : Json) (items : List (PyStr × Json)) :
    compactFields ((k, x) :: items) = quote k ++ char ':' :: (compact x ++ restOfFields items) := by
  cases items with
  | nil =>
    simp only [compactFields, dumpsFields, restOfFields, List.append_assoc]
    rfl
  | cons item items =>
    simp only [compactFields, dumpsFields, restOfFields, List.append_assoc]
    rfl

theorem ends_restOfFields (items : List (PyStr × Json)) (u : PyStr) :
    Ends (restOfFields items ++ u) := by
  cases items with
  | nil => exact ends_cons (by decide) u
  | cons x items => exact ends_cons (by decide) _

theorem close_isMark : IsMark (char ']') ∧ IsMark (codePoint 0x7D) := by decide

theorem close_ne : (char ']' ≠ quoteMark ∧ char ']' ≠ char '[' ∧ char ']' ≠ codePoint 0x7B) ∧
    char ']' ≠ char ',' ∧ codePoint 0x7D ≠ char ',' ∧ codePoint 0x7D ≠ quoteMark := by decide

mutual

/-- **A document is told from what follows it.** -/
theorem dumps_append_inj : ∀ {x y : Json} {u v : PyStr}, wellFormed x = true →
    wellFormed y = true → Ends u → Ends v → compact x ++ u = compact y ++ v → x = y ∧ u = v
  | null, _, _, _, _, _, hu, hv, h => eq_of_mark_append rfl hu hv h
  | bool _, _, _, _, _, _, hu, hv, h => eq_of_mark_append rfl hu hv h
  | int _, _, _, _, _, _, hu, hv, h => eq_of_mark_append rfl hu hv h
  | float _, _, _, _, _, _, hu, hv, h => eq_of_mark_append rfl hu hv h
  | infinity _, _, _, _, _, _, hu, hv, h => eq_of_mark_append rfl hu hv h
  | nan, _, _, _, _, _, hu, hv, h => eq_of_mark_append rfl hu hv h
  | str s, y, u, v, hx, hy, _, _, h => by
    have hmark := mark_eq_of_append h
    cases y with
    | str t =>
      simp only [compact, dumps] at h
      simp only [wellFormed] at hx hy
      obtain ⟨rfl, rfl⟩ := quote_append_inj hx hy h
      exact ⟨rfl, rfl⟩
    | arr | obj => exact absurd hmark (by simp only [mark]; decide)
    | _ => cases hmark
  | arr xs, y, u, v, hx, hy, _, _, h => by
    have hmark := mark_eq_of_append h
    cases y with
    | arr ys =>
      simp only [compact, dumps, List.cons_append, List.cons.injEq, true_and] at h
      simp only [wellFormed] at hx hy
      obtain ⟨rfl, rfl⟩ := dumpsItems_append_inj hx hy h
      exact ⟨rfl, rfl⟩
    | str | obj => exact absurd hmark (by simp only [mark]; decide)
    | _ => cases hmark
  | obj xs, y, u, v, hx, hy, _, _, h => by
    have hmark := mark_eq_of_append h
    cases y with
    | obj ys =>
      simp only [compact, dumps, List.cons_append, List.cons.injEq, true_and] at h
      simp only [wellFormed, Bool.and_eq_true] at hx hy
      obtain ⟨rfl, rfl⟩ := dumpsFields_append_inj hx.2 hy.2 h
      exact ⟨rfl, rfl⟩
    | str | arr => exact absurd hmark (by simp only [mark]; decide)
    | _ => cases hmark

theorem dumpsItems_append_inj : ∀ {xs ys : List Json} {u v : PyStr}, wellFormedItems xs = true →
    wellFormedItems ys = true → compactItems xs ++ u = compactItems ys ++ v → xs = ys ∧ u = v
  | [], [], u, v, _, _, h => ⟨rfl, by simpa only [compactItems, dumpsItems, List.cons_append,
      List.nil_append, List.cons.injEq, true_and] using h⟩
  | [], y :: ys, u, v, _, _, h => by
    rw [compactItems_cons, List.append_assoc] at h
    exact absurd h.symm (compact_append_ne close_isMark.1 close_ne.1)
  | x :: xs, [], u, v, _, _, h => by
    rw [compactItems_cons, List.append_assoc] at h
    exact absurd h (compact_append_ne close_isMark.1 close_ne.1)
  | x :: xs, y :: ys, u, v, hx, hy, h => by
    simp only [wellFormedItems, Bool.and_eq_true] at hx hy
    rw [compactItems_cons, compactItems_cons, List.append_assoc, List.append_assoc] at h
    obtain ⟨rfl, hrest⟩ :=
      dumps_append_inj hx.1 hy.1 (ends_restOfItems xs u) (ends_restOfItems ys v) h
    match xs, ys with
    | [], [] => exact ⟨rfl, (List.cons.inj hrest).2⟩
    | [], _ :: _ => exact absurd (List.cons.inj hrest).1 close_ne.2.1
    | _ :: _, [] => exact absurd (List.cons.inj hrest).1.symm close_ne.2.1
    | x' :: xs, y' :: ys =>
      obtain ⟨heq, rfl⟩ := dumpsItems_append_inj hx.2 hy.2 (List.cons.inj hrest).2
      exact ⟨by rw [heq], rfl⟩

theorem dumpsFields_append_inj : ∀ {xs ys : List (PyStr × Json)} {u v : PyStr},
    wellFormedFields xs = true → wellFormedFields ys = true →
      compactFields xs ++ u = compactFields ys ++ v → xs = ys ∧ u = v
  | [], [], u, v, _, _, h => ⟨rfl, by simpa only [compactFields, dumpsFields, List.cons_append,
      List.nil_append, List.cons.injEq, true_and] using h⟩
  | [], (k, y) :: ys, u, v, _, _, h => by
    rw [compactFields_cons] at h
    exact absurd (List.cons.inj h).1 close_ne.2.2.2
  | (k, x) :: xs, [], u, v, _, _, h => by
    rw [compactFields_cons] at h
    exact absurd (List.cons.inj h).1.symm close_ne.2.2.2
  | (k, x) :: xs, (l, y) :: ys, u, v, hx, hy, h => by
    simp only [wellFormedFields, Bool.and_eq_true] at hx hy
    rw [compactFields_cons, compactFields_cons, List.append_assoc, List.append_assoc] at h
    obtain ⟨rfl, hvalue⟩ := quote_append_inj hx.1.1 hy.1.1 h
    rw [List.cons_append, List.cons_append, List.append_assoc, List.append_assoc] at hvalue
    obtain ⟨rfl, hrest⟩ := dumps_append_inj hx.1.2 hy.1.2 (ends_restOfFields xs u)
      (ends_restOfFields ys v) (List.cons.inj hvalue).2
    match xs, ys with
    | [], [] => exact ⟨rfl, (List.cons.inj hrest).2⟩
    | [], _ :: _ => exact absurd (List.cons.inj hrest).1 close_ne.2.2.1
    | _ :: _, [] => exact absurd (List.cons.inj hrest).1.symm close_ne.2.2.1
    | x' :: xs, y' :: ys =>
      obtain ⟨heq, rfl⟩ := dumpsFields_append_inj hx.2 hy.2 (List.cons.inj hrest).2
      exact ⟨by rw [heq], rfl⟩

end

/-- **What `json.dumps` writes can be read back in one way.** -/
theorem dumps_injective {x y : Json} (hx : wellFormed x = true) (hy : wellFormed y = true)
    (h : compact x = compact y) : x = y := by
  have hnil : Ends [] := nofun
  refine (dumps_append_inj hx hy hnil hnil ?_).1
  rw [h]

end Json

end Foundations
