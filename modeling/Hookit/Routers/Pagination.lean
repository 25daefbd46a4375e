import Hookit.Database
import Hookit.Foundations.Base64
import Hookit.Foundations.Keyset
import Hookit.Foundations.Raise
import Mathlib.Data.Prod.Lex
import Mathlib.Order.Fin.Basic

/-!
# `app/routers/_pagination.py`

A cursor is the `created_at` and the id of a row, in the text `<created_at>|<id>` under base64.

* `decodeCursor_encodeCursor`: a cursor decodes to what it encodes.
* `listPage` is the part that the list routes share: the rows below the cursor, newest first, cut
  to a page.
* `KeysetCorrect` says what the pages of a list route come to when they are read one after the
  other, and `keysetCorrect_of_listPage` proves it of every route that is `listPage` on the rows
  of a query.

The datetimes that `fromisoformat` reads beside the ones that `isoformat` writes are a parameter.
So is the time zone of the database session, in which PostgreSQL reads a datetime without an
offset.
-/

namespace Hookit

open Foundations Foundations.PyStr Foundations.Keyset

/-- What the list routes use of their surroundings. -/
structure Clockwork where
  /-- `fromisoformat` on text that `isoformat` does not write. -/
  otherIso : PyStr → Option Datetime
  /-- The instant of a wall-clock reading in the time zone of the session. -/
  zone : Wall → ℤ

/-- `encode_cursor`. -/
def encodeCursor (createdAt : Aware) (rowId : Uuid) : PyStr :=
  let raw := createdAt.isoformat ++ char '|' :: rowId.str
  (Base64.encodeUrl (raw.map byteOf)).map fun b => codePoint b.val

/-- `decode_cursor`, `none` where it answers `422`. -/
def decodeCursor (W : Clockwork) (cursor : PyStr) : Option (Datetime × Uuid) := do
  let raw ← decode? (← Base64.decodeUrl? (← encode cursor))
  match raw.dropWhile (· ≠ char '|') with
  | [] => none
  | _ :: id => return (← fromIsoformat W.otherIso (raw.takeWhile (· ≠ char '|')), ← Uuid.uuid? id)

/-- The detail of the `422`. -/
def invalidCursor : ApiError := .http 422 (ofString "Invalid cursor")

/-! ## The cursor -/

theorem isAscii_str (u : Uuid) : isAscii u.str = true := by
  rw [isAscii_iff]
  intro c hc
  have := Uuid.val_mem_str hc
  omega

theorem isAscii_isoformat (t : Aware) : isAscii t.isoformat = true := by
  rw [isAscii_iff]
  intro c hc
  have := isoChar_of_mem_isoformat hc
  unfold IsoChar at this
  omega

theorem ne_bar_of_mem_isoformat {t : Aware} {c : CodePoint} (h : c ∈ t.isoformat) :
    c ≠ char '|' := by
  rintro rfl
  have hbar : (char '|').val = 0x7C := char_val '|'
  have := isoChar_of_mem_isoformat h
  unfold IsoChar at this
  omega

theorem encode_encodeCursor (t : Aware) (id : Uuid) :
    encode (encodeCursor t id) =
      some (Base64.encodeUrl ((t.isoformat ++ char '|' :: id.str).map byteOf)) := by
  have hval : ∀ b ∈ Base64.encodeUrl ((t.isoformat ++ char '|' :: id.str).map byteOf),
      (codePoint b.val).val = b.val := by
    intro b hb
    have := Base64.lt_of_mem_encodeUrl hb
    exact Nat.mod_eq_of_lt (by omega)
  rw [encodeCursor, encode_eq_ascii]
  · rw [List.map_map]
    congr 1
    conv_rhs => rw [← List.map_id (Base64.encodeUrl _)]
    refine List.map_congr_left fun b hb => ?_
    rw [Function.comp_apply, byteOf, hval b hb, Base64.byte_eq rfl]
    rfl
  · rw [isAscii_iff]
    intro c hc
    obtain ⟨b, hb, rfl⟩ := List.mem_map.1 hc
    rw [hval b hb]
    exact Base64.lt_of_mem_encodeUrl hb

/-- **`decode_cursor` inverts `encode_cursor`**, for every datetime with an offset and every
UUID. -/
theorem decodeCursor_encodeCursor (W : Clockwork) (t : Aware) (id : Uuid) :
    decodeCursor W (encodeCursor t id) = some (.aware t, id) := by
  have hascii : isAscii (t.isoformat ++ char '|' :: id.str) = true := by
    rw [isAscii_append, isAscii_cons, isAscii_isoformat, isAscii_str]
    decide
  have hsplit : ∀ c ∈ t.isoformat, decide (c ≠ char '|') = true := fun c hc =>
    decide_eq_true (ne_bar_of_mem_isoformat hc)
  have hdrop : (t.isoformat ++ char '|' :: id.str).dropWhile (· ≠ char '|') =
      char '|' :: id.str := by
    rw [List.dropWhile_append_of_pos hsplit]
    exact List.dropWhile_cons_of_neg (by simp)
  have htake : (t.isoformat ++ char '|' :: id.str).takeWhile (· ≠ char '|') = t.isoformat := by
    rw [List.takeWhile_append_of_pos hsplit, List.takeWhile_cons_of_neg (by simp), List.append_nil]
  simp only [decodeCursor, encode_encodeCursor, Option.bind_eq_bind, Option.bind_some,
    Base64.decodeUrl?_encodeUrl, decode?_ascii hascii, hdrop, htake, fromIsoformat_isoformat,
    Uuid.uuid?_str]
  rfl

/-! ## The page -/

/-- What the list routes order by: `created_at`, then the id. -/
abbrev RowKey := ℤ ×ₗ Uuid

def rowKey (createdAt : Aware) (id : Uuid) : RowKey := toLex (createdAt.instant, id)

/-- The point in time that PostgreSQL takes a datetime for. -/
def Clockwork.instant (W : Clockwork) : Datetime → ℤ
  | .naive wall => W.zone wall
  | .aware t => t.instant

/-- The key that a cursor says. -/
def decodeKey (W : Clockwork) (cursor : PyStr) : Option RowKey :=
  (decodeCursor W cursor).map fun p => toLex (W.instant p.1, p.2)

/-- The end of each list route: decode the cursor, run the query, and cut a page from the rows below
the cursor. -/
def listPage {ρ : Type} (W : Clockwork) (createdAt : ρ → Aware) (limit : ℕ) (cursor : Option PyStr)
    (query : Except ApiError (List (Uuid × ρ))) : Except ApiError (Page (Uuid × ρ) PyStr) := do
  let below ← orRaise invalidCursor (cursorKey (decodeKey W) cursor)
  return page (fun e => rowKey (createdAt e.2) e.1) (fun e => encodeCursor (createdAt e.2) e.1)
    limit (← query) below

/-! ## Reading page by page -/

/-- The answer of a list route to each fetch, with the cursor that is followed. -/
abbrev Serve (α : Type) := Database → Option PyStr → Except ApiError (Page α PyStr)

/-- The chains of pages that a route serves over a sequence of states. -/
def Served {α : Type} (serve : Serve α) (db : ℕ → Database) (n : ℕ) (c : Option PyStr)
    (ps : List (Page α PyStr)) (e : Option PyStr) : Prop :=
  Chain (fun m c => (serve (db m) c).toOption) n c ps e

/-- **What following the cursors comes to**, for a route that serves items with an id and a
`created_at` from the rows of a query: over any sequence of states, in which a row keeps its
`created_at`. -/
structure KeysetCorrect {α : Type} (serve : Serve α) (matching : Database → List (Uuid × Aware))
    (limit : ℕ) (id : α → Uuid) (createdAt : α → Aware) : Prop where
  /-- The rows come strictly decreasing in `(created_at, id)`. -/
  decreasing {db : ℕ → Database} {ps : List (Page α PyStr)} {e : Option PyStr}
    (h : Served serve db 0 none ps e) :
    ((ps.flatMap Page.items).map fun x => rowKey (createdAt x) (id x)).Pairwise (· > ·)
  /-- No row comes twice. -/
  nodup {db : ℕ → Database} {created : Uuid → ℤ} {ps : List (Page α PyStr)} {e : Option PyStr}
    (hcreated : ∀ m, ∀ r ∈ matching (db m), r.2.instant = created r.1)
    (h : Served serve db 0 none ps e) : ((ps.flatMap Page.items).map id).Nodup
  /-- When the chain ends, each row that was there and matched at every fetch has come once. -/
  complete {db : ℕ → Database} {created : Uuid → ℤ} {ps : List (Page α PyStr)}
    (hcreated : ∀ m, ∀ r ∈ matching (db m), r.2.instant = created r.1)
    (h : Served serve db 0 none ps none) (i : Uuid)
    (hthere : ∀ m < ps.length, i ∈ (matching (db m)).map Prod.fst) :
    ((ps.flatMap Page.items).map id).count i = 1
  /-- A cursor that the route has returned is answered wherever the first page is. -/
  follow {db : ℕ → Database} {ps : List (Page α PyStr)} {e : Option PyStr} (d : Database)
    (h : Served serve db 0 none ps e) (hfirst : ∃ p, serve d none = .ok p) :
    ∃ p, serve d e = .ok p
  /-- Over a state that does not change, the chain ends after `⌈n / limit⌉` pages, or one. -/
  ends (d : Database) (hfirst : ∃ p, serve d none = .ok p) :
    (∃ ps, Served serve (fun _ => d) 0 none ps none) ∧
      ∀ ps, Served serve (fun _ => d) 0 none ps none →
        ps.length = pageCount limit (matching d).length

section Correct

variable {ρ α : Type} {W : Clockwork} {stamp : ρ → Aware} {limit : ℕ}

/-- The key of a row of a query. -/
def entryKey (stamp : ρ → Aware) (e : Uuid × ρ) : RowKey := rowKey (stamp e.2) e.1

/-- The cursor of a row of a query. -/
def entryCursor (stamp : ρ → Aware) (e : Uuid × ρ) : PyStr := encodeCursor (stamp e.2) e.1

theorem decodeKey_entryCursor (W : Clockwork) (stamp : ρ → Aware) (e : Uuid × ρ) :
    decodeKey W (entryCursor stamp e) = some (entryKey stamp e) := by
  simp only [decodeKey, entryCursor, decodeCursor_encodeCursor, Option.map_some]
  rfl

theorem listPage_eq_ok_iff {c : Option PyStr} {query : Except ApiError (List (Uuid × ρ))}
    {p : Page (Uuid × ρ) PyStr} : listPage W stamp limit c query = .ok p ↔
      ∃ rows, query = .ok rows ∧
        fetch (entryKey stamp) (entryCursor stamp) (decodeKey W) limit rows c = some p := by
  simp only [listPage, bind_eq_ok_iff, orRaise_eq_ok_iff, pure_eq_ok_iff, fetch_eq_some_iff]
  constructor
  · rintro ⟨below, hbelow, rows, hrows, hp⟩
    exact ⟨rows, hrows, below, hbelow, hp⟩
  · rintro ⟨rows, hrows, below, hbelow, hp⟩
    exact ⟨below, hbelow, rows, hrows, hp⟩

variable {serve : Serve α} {before : Database → Except ApiError Unit}
  {query : Database → Except ApiError (List (Uuid × ρ))} {rows : Database → List (Uuid × ρ)}
  {item : Database → Uuid × ρ → α} {id : α → Uuid} {createdAt : α → Aware}

/-- A list route: what it checks first, `listPage` on the rows of its query, and the item that it
answers for a row. -/
structure Listing (W : Clockwork) (stamp : ρ → Aware) (limit : ℕ) (serve : Serve α)
    (before : Database → Except ApiError Unit)
    (query : Database → Except ApiError (List (Uuid × ρ))) (rows : Database → List (Uuid × ρ))
    (item : Database → Uuid × ρ → α) (id : α → Uuid) (createdAt : α → Aware) : Prop where
  serve_eq (d : Database) (c : Option PyStr) :
    serve d c = (do before d; Page.map (item d) <$> listPage W stamp limit c (query d))
  query_eq {d : Database} {rs : List (Uuid × ρ)} (h : query d = .ok rs) : rs = rows d
  nodup (d : Database) : ((rows d).map Prod.fst).Nodup
  id_item (d : Database) (e : Uuid × ρ) : id (item d e) = e.1
  createdAt_item (d : Database) (e : Uuid × ρ) : createdAt (item d e) = stamp e.2

namespace Listing

variable (hL : Listing W stamp limit serve before query rows item id createdAt)

include hL

theorem serve_eq_ok_iff {d : Database} {c : Option PyStr} {p : Page α PyStr} :
    serve d c = .ok p ↔ before d = .ok () ∧ query d = .ok (rows d) ∧
      ∃ p', fetch (entryKey stamp) (entryCursor stamp) (decodeKey W) limit (rows d) c = some p' ∧
        p'.map (item d) = p := by
  simp only [hL.serve_eq, bind_eq_ok_iff, map_eq_ok_iff, listPage_eq_ok_iff]
  constructor
  · rintro ⟨⟨⟩, hbefore, p', ⟨rs, hquery, hp'⟩, hp⟩
    obtain rfl := hL.query_eq hquery
    exact ⟨hbefore, hquery, p', hp', hp⟩
  · rintro ⟨hbefore, hquery, p', hp', hp⟩
    exact ⟨(), hbefore, p', ⟨rows d, hquery, hp'⟩, hp⟩

/-- A chain that is served is a chain over the rows of the query. -/
theorem chain_of_served {db : ℕ → Database} {n : ℕ} {c e : Option PyStr} {ps : List (Page α PyStr)}
    (h : Served serve db n c ps e) :
    ∃ ps', Chain (fun m => fetch (entryKey stamp) (entryCursor stamp) (decodeKey W) limit
        (rows (db m))) n c ps' e ∧ ps'.length = ps.length ∧
      (ps.flatMap Page.items).map (fun x => (id x, createdAt x)) =
        (ps'.flatMap Page.items).map fun e => (e.1, stamp e.2) := by
  have hitems : ∀ {m : ℕ} {c : Option PyStr} {p : Page α PyStr},
      (serve (db m) c).toOption = some p → ∃ p',
        fetch (entryKey stamp) (entryCursor stamp) (decodeKey W) limit (rows (db m)) c = some p' ∧
        p'.next = p.next ∧ p.items.map (fun x => (id x, createdAt x)) =
          p'.items.map fun e => (e.1, stamp e.2) := by
    intro m c p hp
    obtain ⟨-, -, p', hp', rfl⟩ := hL.serve_eq_ok_iff.1 (toOption_eq_some_iff.1 hp)
    refine ⟨p', hp', rfl, ?_⟩
    simp only [Page.map, List.map_map]
    refine List.map_congr_left fun e _ => ?_
    simp only [Function.comp_apply, hL.id_item, hL.createdAt_item]
  induction h with
  | last hp =>
    obtain ⟨p', hp', hnext, hmap⟩ := hitems hp
    exact ⟨[p'], hnext ▸ .last hp', rfl, by simpa using hmap⟩
  | more hp hnext _ ih =>
    obtain ⟨p', hp', hnext', hmap⟩ := hitems hp
    obtain ⟨ps', hchain, hlen, hrest⟩ := ih
    refine ⟨p' :: ps', .more hp' (hnext'.trans hnext) hchain, by rw [List.length_cons, hlen,
      List.length_cons], ?_⟩
    rw [List.flatMap_cons, List.flatMap_cons, List.map_append, List.map_append, hmap, hrest]

/-- A chain over the rows of the query is served where the route answers. -/
theorem served_of_chain {d : Database} (hfirst : ∃ p, serve d none = .ok p) {n : ℕ}
    {c e : Option PyStr} {ps' : List (Page (Uuid × ρ) PyStr)}
    (h : Chain (fun _ => fetch (entryKey stamp) (entryCursor stamp) (decodeKey W) limit (rows d))
      n c ps' e) : Served serve (fun _ => d) n c (ps'.map (Page.map (item d))) e := by
  obtain ⟨p₀, hp₀⟩ := hfirst
  obtain ⟨hbefore, hquery, -⟩ := hL.serve_eq_ok_iff.1 hp₀
  have hserve : ∀ {c : Option PyStr} {p' : Page (Uuid × ρ) PyStr},
      fetch (entryKey stamp) (entryCursor stamp) (decodeKey W) limit (rows d) c = some p' →
      (serve d c).toOption = some (p'.map (item d)) := fun hp' =>
    toOption_eq_some_iff.2 (hL.serve_eq_ok_iff.2 ⟨hbefore, hquery, _, hp', rfl⟩)
  induction h with
  | last hp => exact .last (hserve hp)
  | more hp hnext _ ih => exact .more (hserve hp) hnext ih

/-- Rows with different ids have different keys. -/
theorem nodup_keys (d : Database) : ((rows d).map (entryKey stamp)).Nodup := by
  refine List.Nodup.of_map (fun k : RowKey => (ofLex k).2) ?_
  rw [List.map_map]
  exact hL.nodup d

/-- No row comes twice in a chain. -/
theorem nodup_of_chain (hlimit : 1 ≤ limit) {db : ℕ → Database} {created : Uuid → ℤ}
    (hcreated : ∀ m, ∀ r ∈ rows (db m), (stamp r.2).instant = created r.1) {e : Option PyStr}
    {ps : List (Page (Uuid × ρ) PyStr)}
    (h : Chain (fun m => fetch (entryKey stamp) (entryCursor stamp) (decodeKey W) limit
      (rows (db m))) 0 none ps e) : ((ps.flatMap Page.items).map Prod.fst).Nodup := by
  have hpair := (chain_decreasing (decodeKey_entryCursor W stamp) hlimit
    (fun m => hL.nodup_keys (db m)) h rfl).1
  have hkey : ∀ r ∈ ps.flatMap Page.items, entryKey stamp r = toLex (created r.1, r.1) := by
    intro r hr
    obtain ⟨m, hm⟩ := mem_of_chain h hr
    rw [entryKey, rowKey, hcreated m r hm]
  have hmap : (ps.flatMap Page.items).map (fun r => (toLex (created r.1, r.1) : RowKey)) =
      ((ps.flatMap Page.items).map Prod.fst).map fun i => toLex (created i, i) := by
    rw [List.map_map]
    rfl
  rw [keys, List.map_congr_left hkey, hmap] at hpair
  exact List.Nodup.of_map _ (hpair.imp fun h => ne_of_gt h)

end Listing

/-- What a route answers for rows, in terms of the rows. -/
theorem map_rowKey_of_items {l : List (Uuid × ρ)} {l' : List α}
    (h : l'.map (fun x => (id x, createdAt x)) = l.map fun e => (e.1, stamp e.2)) :
    (l'.map fun x => rowKey (createdAt x) (id x)) = l.map (entryKey stamp) ∧
      l'.map id = l.map Prod.fst := by
  constructor
  · have := congrArg (List.map fun p : Uuid × Aware => rowKey p.2 p.1) h
    rwa [List.map_map, List.map_map] at this
  · have := congrArg (List.map (Prod.fst : Uuid × Aware → Uuid)) h
    rwa [List.map_map, List.map_map] at this

/-- **Every list route is correct under paging.** -/
theorem Listing.keysetCorrect (hlimit : 1 ≤ limit)
    (hL : Listing W stamp limit serve before query rows item id createdAt) :
    KeysetCorrect serve (fun d => (rows d).map fun e => (e.1, stamp e.2)) limit id createdAt := by
  have hdecode := decodeKey_entryCursor W stamp
  have hstamp : ∀ {db : ℕ → Database} {created : Uuid → ℤ},
      (∀ m, ∀ r ∈ (rows (db m)).map fun e => (e.1, stamp e.2), r.2.instant = created r.1) →
      ∀ m, ∀ r ∈ rows (db m), (stamp r.2).instant = created r.1 := fun h m r hr =>
    h m (r.1, stamp r.2) (List.mem_map_of_mem hr)
  constructor
  case decreasing =>
    intro db ps e h
    obtain ⟨ps', hchain, -, hmap⟩ := hL.chain_of_served h
    rw [(map_rowKey_of_items hmap).1]
    exact (chain_decreasing hdecode hlimit (fun m => hL.nodup_keys (db m)) hchain rfl).1
  case nodup =>
    intro db created ps e hcreated h
    obtain ⟨ps', hchain, -, hmap⟩ := hL.chain_of_served h
    rw [(map_rowKey_of_items hmap).2]
    exact hL.nodup_of_chain hlimit (hstamp hcreated) hchain
  case complete =>
    intro db created ps hcreated h i hthere
    obtain ⟨ps', hchain, hlen, hmap⟩ := hL.chain_of_served h
    rw [(map_rowKey_of_items hmap).2]
    refine List.count_eq_one_of_mem (hL.nodup_of_chain hlimit (hstamp hcreated) hchain) ?_
    have hin : toLex (created i, i) ∈ keys (entryKey stamp) ps' := by
      refine chain_complete hdecode hlimit (fun m => hL.nodup_keys (db m)) hchain rfl rfl rfl ?_
      intro m _ hm
      obtain ⟨r, hr, rfl⟩ := List.mem_map.1 (hthere m (by omega))
      obtain ⟨e, he, rfl⟩ := List.mem_map.1 hr
      refine List.mem_map.2 ⟨e, he, ?_⟩
      rw [entryKey, rowKey, hstamp hcreated m e he]
    obtain ⟨r, hr, hkey⟩ := List.mem_map.1 hin
    exact List.mem_map.2 ⟨r, hr, congrArg (fun k : RowKey => (ofLex k).2) hkey⟩
  case follow =>
    intro db ps e d h hfirst
    obtain ⟨ps', hchain, -, -⟩ := hL.chain_of_served h
    obtain ⟨p₀, hp₀⟩ := hfirst
    obtain ⟨hbefore, hquery, -⟩ := hL.serve_eq_ok_iff.1 hp₀
    obtain ⟨p', hp'⟩ := chain_exists_next hdecode hchain (rows d)
    exact ⟨_, hL.serve_eq_ok_iff.2 ⟨hbefore, hquery, p', hp', rfl⟩⟩
  case ends =>
    intro d hfirst
    constructor
    · obtain ⟨ps', hps'⟩ := exists_chain hdecode hlimit (hL.nodup_keys d) 0 (c := none) rfl
      exact ⟨_, hL.served_of_chain hfirst hps'⟩
    · intro ps h
      obtain ⟨ps', hchain, hlen, -⟩ := hL.chain_of_served h
      rw [← hlen, chain_length_eq hdecode hlimit (hL.nodup_keys d) hchain rfl rfl]
      simp only [below, Option.all_none, List.filter_true, List.length_insertionSort,
        List.length_map]

/-- **A chain over a state that does not change** has the rows of the query. -/
theorem Listing.mem_served_iff (hlimit : 1 ≤ limit)
    (hL : Listing W stamp limit serve before query rows item id createdAt) {d : Database}
    {ps : List (Page α PyStr)} (h : Served serve (fun _ => d) 0 none ps none) {i : Uuid} :
    i ∈ (ps.flatMap Page.items).map id ↔ i ∈ (rows d).map Prod.fst := by
  obtain ⟨ps', hchain, -, hmap⟩ := hL.chain_of_served h
  rw [(map_rowKey_of_items hmap).2]
  constructor
  · intro hi
    obtain ⟨r, hr, rfl⟩ := List.mem_map.1 hi
    obtain ⟨-, hmem⟩ := mem_of_chain hchain hr
    exact List.mem_map_of_mem hmem
  · intro hi
    obtain ⟨r, hr, rfl⟩ := List.mem_map.1 hi
    have hin : entryKey stamp r ∈ keys (entryKey stamp) ps' :=
      chain_complete (decodeKey_entryCursor W stamp) hlimit (fun _ => hL.nodup_keys d) hchain rfl
        rfl rfl fun _ _ _ => List.mem_map_of_mem hr
    obtain ⟨r', hr', hkey⟩ := List.mem_map.1 hin
    exact List.mem_map.2 ⟨r', hr', congrArg (fun k : RowKey => (ofLex k).2) hkey⟩

end Correct

end Hookit
