import Hookit.Database
import Hookit.Foundations.Keyset
import Mathlib.Data.Prod.Lex

/-!
# `app/services/showcase.py`: the health of a receiver and its inbox

`recordReceivedRequest` stores a request that a receiver has answered and keeps the newest twenty.

`get?_recordReceivedRequest`: the request is in the inbox afterwards unless twenty newer ones are.
-/

namespace Hookit

open Foundations

/-- `SHOWCASE_MARKER`. -/
def showcaseMarker : PyStr := .ofString "__showcase__"

/-- `BANK_NAIVE_MARKER`. -/
def bankNaiveMarker : PyStr := .ofString "__showcase_bank_naive__"

/-- `BANK_SAFE_MARKER`. -/
def bankSafeMarker : PyStr := .ofString "__showcase_bank_safe__"

/-- `_INBOX_KEEP`. -/
def inboxKeep : ℕ := 20

/-- `_MAX_BODY_CHARS`. -/
def maxBodyChars : ℕ := 8192

/-- `get_health`. -/
def getHealth (db : Database) (endpointId : Uuid) : Bool :=
  match db.receiverHealth.get? endpointId with
  | some row => row.healthy
  | none => true

/-- `ORDER BY received_at, id`. -/
def inboxKey (e : Uuid × ReceivedRow) : Time ×ₗ Uuid := toLex (e.2.receivedAt, e.1)

/-- The inbox of an endpoint, newest first. -/
def inbox (rows : Rows Uuid ReceivedRow) (endpointId : Uuid) : List (Uuid × ReceivedRow) :=
  Keyset.below inboxKey (rows.select fun _ row => row.endpointId = endpointId) none

/-- The column is a 32-bit integer. -/
def FitsInteger (n : ℤ) : Prop := -2 ^ 31 ≤ n ∧ n < 2 ^ 31

instance (n : ℤ) : Decidable (FitsInteger n) := by
  unfold FitsInteger
  infer_instance

/-- The columns take the values of the row. -/
structure StorableReceived (row : ReceivedRow) : Prop where
  eventType : row.eventType.storable = true
  attempt : FitsInteger row.attempt
  signatureHeader : row.signatureHeader.all PyStr.storable = true
  timestampHeader : row.timestampHeader.all PyStr.storable = true
  body : row.body.storable = true

instance (row : ReceivedRow) : Decidable (StorableReceived row) :=
  decidable_of_iff (row.eventType.storable = true ∧ FitsInteger row.attempt ∧
      row.signatureHeader.all PyStr.storable = true ∧
      row.timestampHeader.all PyStr.storable = true ∧ row.body.storable = true)
    ⟨fun ⟨h₁, h₂, h₃, h₄, h₅⟩ => ⟨h₁, h₂, h₃, h₄, h₅⟩,
      fun h => ⟨h.eventType, h.attempt, h.signatureHeader, h.timestampHeader, h.body⟩⟩

/-- The row that `record_received_request` adds. -/
def ReceivedRow.cut (row : ReceivedRow) : ReceivedRow :=
  { row with body := row.body.take maxBodyChars }

/-- `record_received_request`. -/
def recordReceivedRequest (db : Database) (id : Uuid) (row : ReceivedRow) :
    Except PyError Database :=
  if StorableReceived row.cut then
    let rows := db.receivedRequests.insert id row.cut
    let stale := ((inbox rows row.endpointId).drop inboxKeep).map Prod.fst
    .ok (db.withReceived (rows.filter fun k _ => k ∉ stale))
  else .error .dataError

/-- The requests of the endpoint that are newer than one with the given key. -/
def newerReceived (db : Database) (endpointId : Uuid) (key : Time ×ₗ Uuid) :
    List (Uuid × ReceivedRow) :=
  db.receivedRequests.select fun id row => row.endpointId = endpointId && key < inboxKey (id, row)

theorem nodup_map_inboxKey (rows : Rows Uuid ReceivedRow) (p : Uuid → ReceivedRow → Bool) :
    ((rows.select p).map inboxKey).Nodup := by
  refine List.Nodup.of_map (fun k => (ofLex k).2) ?_
  rw [List.map_map]
  exact rows.nodup_select p

/-- A row is cut off the inbox if enough newer ones are there. -/
theorem mem_stale_iff {rows : Rows Uuid ReceivedRow} {id : Uuid} {row : ReceivedRow}
    (h : (id, row) ∈ rows.entries) :
    id ∈ ((inbox rows row.endpointId).drop inboxKeep).map Prod.fst ↔ inboxKeep ≤
      ((rows.select fun _ r => r.endpointId = row.endpointId).filter
        fun e => inboxKey (id, row) < inboxKey e).length := by
  have hmem : (id, row) ∈ inbox rows row.endpointId :=
    Keyset.mem_below.2 ⟨Rows.mem_select.2 ⟨h, decide_eq_true rfl⟩, rfl⟩
  have hdecreasing : ((inbox rows row.endpointId).map inboxKey).Pairwise (· > ·) :=
    Keyset.below_decreasing (nodup_map_inboxKey rows _) none
  have hperm : (inbox rows row.endpointId).Perm
      (rows.select fun _ r => r.endpointId = row.endpointId) := Keyset.below_perm _
  rw [← (hperm.filter _).length_eq, ← Keyset.mem_drop_iff hdecreasing hmem]
  constructor
  · intro hid
    obtain ⟨⟨k, r⟩, hr, hk⟩ := List.mem_map.1 hid
    obtain rfl : k = id := hk
    have hr' := (Rows.mem_select.1 (Keyset.mem_below.1 (List.mem_of_mem_drop hr)).1).1
    obtain rfl := Rows.eq_of_mem h hr'
    exact hr
  · exact fun hdrop => List.mem_map.2 ⟨_, hdrop, rfl⟩

/-- **The request is in the inbox** afterwards, unless twenty newer ones are. -/
theorem get?_recordReceivedRequest {db db' : Database} {id : Uuid} {row : ReceivedRow}
    (hfresh : db.receivedRequests.get? id = none)
    (h : recordReceivedRequest db id row = .ok db') :
    db'.receivedRequests.get? id = some row.cut ↔
      (newerReceived db row.endpointId (inboxKey (id, row))).length < inboxKeep := by
  unfold recordReceivedRequest at h
  split at h
  · obtain rfl := Except.ok.inj h
    have hget : (db.receivedRequests.insert id row.cut).get? id = some row.cut := by
      rw [Rows.get?_insert, if_pos rfl, hfresh, Option.getD_none]
    have hcount : (((db.receivedRequests.insert id row.cut).select
        fun _ r => r.endpointId = row.cut.endpointId).filter
          fun e => inboxKey (id, row.cut) < inboxKey e).length =
        (newerReceived db row.endpointId (inboxKey (id, row))).length := by
      have hlast : ([(id, row.cut)].filter fun e => e.2.endpointId = row.cut.endpointId).filter
          (fun e => inboxKey (id, row.cut) < inboxKey e) = [] := by simp
      rw [Rows.select, Rows.entries_insert hfresh, List.filter_append, List.filter_append, hlast,
        List.append_nil, List.filter_filter, newerReceived, Rows.select]
      exact congrArg List.length (List.filter_congr fun e _ => Bool.and_comm _ _)
    have hstale := mem_stale_iff (Rows.get?_eq_some_iff.1 hget)
    rw [hcount] at hstale
    have hfilter : ((db.receivedRequests.insert id row.cut).filter fun k _ =>
        k ∉ ((inbox (db.receivedRequests.insert id row.cut) row.endpointId).drop inboxKeep).map
          Prod.fst).get? id = some row.cut ↔
        id ∉ ((inbox (db.receivedRequests.insert id row.cut) row.endpointId).drop inboxKeep).map
          Prod.fst := by
      rw [Rows.get?_filter, hget, Option.filter_eq_some_iff]
      simp
    exact hfilter.trans ((not_congr hstale).trans not_le)
  · cases h

end Hookit
