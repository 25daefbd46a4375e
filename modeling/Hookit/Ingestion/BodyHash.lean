import Hookit.Foundations.SortedKeys
import Hookit.Ingestion.Machine

/-!
# `app/services/event_ingestion.py`: `_body_hash`

The hash of a request body, over a hash function that stands for SHA-256.

Two bodies have the same hash exactly when their types are the same and their payloads are the same
value up to the order of keys. So the response that a record holds is returned for the body it was
made from and its reorderings, and any other body is a conflict (`bodyHash_tells`).
-/

namespace Hookit.Ingestion

open Foundations Foundations.PyStr Json

/-- A `dict` that `json.loads` returns. -/
abbrev Payload := List (PyStr × Json)

/-- `{"type": event_type, "payload": payload}`. -/
def requestBody (eventType : PyStr) (payload : Payload) : Json :=
  .obj [(ofString "type", .str eventType), (ofString "payload", .obj payload)]

/-- `canonical`: `json.dumps` with sorted keys and compact separators. -/
def canonicalBody (eventType : PyStr) (payload : Payload) : PyStr :=
  dumps (ofString ",") (ofString ":") (sortKeys (requestBody eventType payload))

/-- `_body_hash`: the `hexdigest` of the encoded text. An encoding error would be an exception. -/
def bodyHash (sha256 : Bytes → PyStr) (eventType : PyStr) (payload : Payload) : Option PyStr :=
  (encode (canonicalBody eventType payload)).map sha256

variable {sha256 : Bytes → PyStr} {eventType eventType' : PyStr} {payload payload' : Payload}

theorem isAscii_canonicalBody (eventType : PyStr) (payload : Payload) :
    isAscii (canonicalBody eventType payload) = true :=
  isAscii_dumps (by decide) (by decide) _

/-- The text is always encoded. -/
theorem bodyHash_eq (sha256 : Bytes → PyStr) (eventType : PyStr) (payload : Payload) :
    bodyHash sha256 eventType payload =
      some (sha256 ((canonicalBody eventType payload).map byteOf)) := by
  rw [bodyHash, encode_eq_ascii (isAscii_canonicalBody eventType payload), Option.map_some]

theorem same_requestBody_iff :
    Same (requestBody eventType payload) (requestBody eventType' payload') ↔
      eventType = eventType' ∧ Same (.obj payload) (.obj payload') := by
  have hne : ofString "type" ≠ ofString "payload" := by decide
  rw [requestBody, requestBody, same_obj_iff]
  simp [SameFields, same_str_iff, hne, hne.symm]

theorem bodyHash_eq_iff (hsha256 : Function.Injective sha256)
    (hbody : wellFormed (requestBody eventType payload) = true)
    (hbody' : wellFormed (requestBody eventType' payload') = true) :
    bodyHash sha256 eventType payload = bodyHash sha256 eventType' payload' ↔
      eventType = eventType' ∧ Same (.obj payload) (.obj payload') := by
  have hbytes : (canonicalBody eventType payload).map byteOf =
      (canonicalBody eventType' payload').map byteOf ↔
        canonicalBody eventType payload = canonicalBody eventType' payload' :=
    ⟨map_byteOf_inj (isAscii_canonicalBody _ _) (isAscii_canonicalBody _ _), congrArg _⟩
  rw [bodyHash_eq, bodyHash_eq, Option.some_inj, hsha256.eq_iff, hbytes, ← same_requestBody_iff]
  exact dumps_sortKeys_iff hbody hbody'

/-- **The hash tells the body**, up to the order of keys: the response of a record is returned for
the body that it was made from, however its keys are ordered, and every other body is a
conflict. -/
theorem bodyHash_tells (hsha256 : Function.Injective sha256)
    (hbody : wellFormed (requestBody eventType payload) = true)
    (hbody' : wellFormed (requestBody eventType' payload') = true) :
    (bodyHash sha256 eventType payload = bodyHash sha256 eventType' payload' ↔
      eventType = eventType' ∧ Same (.obj payload) (.obj payload')) ∧
    ∀ (record : IdempotencyRecord) (requestHash : PyStr),
      bodyHash sha256 eventType payload = some record.requestHash →
      bodyHash sha256 eventType' payload' = some requestHash →
      (replay record requestHash = .conflict ↔
        ¬ (eventType = eventType' ∧ Same (.obj payload) (.obj payload'))) := by
  have hiff := bodyHash_eq_iff hsha256 hbody hbody'
  refine ⟨hiff, fun record requestHash hrecord hrequest => ?_⟩
  rw [hrecord, hrequest, Option.some_inj] at hiff
  rw [← hiff, replay]
  split_ifs with hne
  · exact ⟨fun _ => hne, fun _ => rfl⟩
  · exact ⟨nofun, fun h => absurd h hne⟩

/-- `{"a": true, "b": "2"}` and `{"b": "2", "a": true}`, with the bytes as their own hash. -/
theorem bodyHash_tells_reordered :
    bodyHash (fun bytes => bytes.map fun b => codePoint b.val) (ofString "order.created")
        [(ofString "a", .bool true), (ofString "b", .str (ofString "2"))] =
      bodyHash (fun bytes => bytes.map fun b => codePoint b.val) (ofString "order.created")
        [(ofString "b", .str (ofString "2")), (ofString "a", .bool true)] := by
  have hinjective : Function.Injective fun bytes : Bytes => bytes.map fun b => codePoint b.val := by
    refine List.map_injective_iff.2 fun b c h => ?_
    have hval : b.val % 0x110000 = c.val % 0x110000 := congrArg Fin.val h
    ext
    omega
  refine (bodyHash_tells hinjective (by decide) (by decide)).1.2 ⟨rfl, ?_⟩
  rw [same_obj_iff]
  simp [SameFields, Same]

end Hookit.Ingestion
