import Hookit.Foundations.Json
import Hookit.Foundations.Uuid
import Hookit.Models

/-!
# `app/services/transform.py`

The body of a delivery (`buildDeliveryBody`): the platform's own envelope, or a Discord message
(`toDiscordMessage`). The Discord message carries the time at which it is built, which is an
argument here.
-/

namespace Hookit

open Foundations Foundations.PyStr

/-- A JSON object: its items in their order. -/
abbrev JsonObject := List (PyStr × Json)

/-- `_DISCORD_MAX_FIELDS`. -/
def discordMaxFields : ℕ := 25

/-- `_DISCORD_MAX_VALUE`. -/
def discordMaxValue : ℕ := 1024

/-- `_DISCORD_MAX_NAME`. -/
def discordMaxName : ℕ := 256

/-- `_DISCORD_COLOR`. -/
def discordColor : JsonInt := ⟨0x6C8CFF, by decide⟩

/-- One embed field, for an item of the payload. -/
def discordField (item : PyStr × Json) : Json :=
  let rendered :=
    match item.2 with
    | .str s => s
    | value => value.dumps (ofString ", ") (ofString ": ")
  .obj
    [(ofString "name", .str (item.1.take discordMaxName)),
      (ofString "value", .str ((if rendered = [] then ofString "—" else rendered).take
        discordMaxValue)),
      (ofString "inline", .bool true)]

/-- `to_discord_message`, built at the time that `now` spells. -/
def toDiscordMessage (eventId : Uuid) (eventType : PyStr) (payload : JsonObject) (now : PyStr) :
    JsonObject :=
  let fields := (payload.take discordMaxFields).map discordField
  let embed : JsonObject :=
    [(ofString "title", .str (ofString "📨 " ++ eventType)),
      (ofString "description", .str (ofString "Delivered by the Reliable Webhook Platform")),
      (ofString "color", .int discordColor),
      (ofString "footer", .obj [(ofString "text", .str (ofString "event " ++ eventId.str))]),
      (ofString "timestamp", .str now)]
  let embed := if fields = [] then embed else embed ++ [(ofString "fields", .arr fields)]
  [(ofString "username", .str (ofString "HookIt")), (ofString "embeds", .arr [.obj embed])]

/-- The document that is sent for the endpoint's format. -/
def deliveryDocument (payloadFormat : PayloadFormat) (eventId : Uuid) (eventType : PyStr)
    (payload : JsonObject) (now : PyStr) : JsonObject :=
  match payloadFormat with
  | .discord => toDiscordMessage eventId eventType payload now
  | .raw =>
    [(ofString "event_id", .str eventId.str), (ofString "type", .str eventType),
      (ofString "payload", .obj payload)]

/-- `build_delivery_body`. -/
def buildDeliveryBody (payloadFormat : PayloadFormat) (eventId : Uuid) (eventType : PyStr)
    (payload : JsonObject) (now : PyStr) : Option Bytes :=
  encode ((Json.obj (deliveryDocument payloadFormat eventId eventType payload now)).dumps
    (ofString ",") (ofString ":"))

/-- **Every event has a body.** -/
theorem exists_buildDeliveryBody (payloadFormat : PayloadFormat) (eventId : Uuid)
    (eventType : PyStr) (payload : JsonObject) (now : PyStr) :
    ∃ body, buildDeliveryBody payloadFormat eventId eventType payload now = some body :=
  ⟨_, encode_eq_ascii (Json.isAscii_dumps (by decide) (by decide) _)⟩

end Hookit
