import Hookit.Services.Transform

/-!
# Messages that Discord accepts

`DiscordLimits` are the limits that Discord documents for an embed. `toDiscordMessage` clamps the
number of fields, their names and their values; it does not clamp the prefixed title, give a name
to an empty key or look at the total.

`discordAccepts_iff`: the message of an event is accepted exactly if its type leaves room for the
prefix, no key among the first 25 is empty and the total fits (`FitsDiscord`).
-/

namespace Hookit

open Foundations Foundations.PyStr

/-! ## Reading a message -/

/-- A text of an object. -/
def textAt (object : JsonObject) (key : String) : Option PyStr :=
  match Json.get object (ofString key) with
  | some (.str s) => some s
  | _ => none

/-- The name and the value of an embed field. -/
def fieldTexts : Json → Option (PyStr × PyStr)
  | .obj field => (textAt field "name").bind fun name => (textAt field "value").map (name, ·)
  | _ => none

/-- The fields of an embed. -/
def embedFields (embed : JsonObject) : List Json :=
  match Json.get embed (ofString "fields") with
  | some (.arr fields) => fields
  | _ => []

/-- What the limits are about. -/
structure EmbedTexts where
  title : PyStr
  description : PyStr
  footer : PyStr
  fields : List (PyStr × PyStr)

/-- The texts of a message with one embed. -/
def HasTexts (message : JsonObject) (texts : EmbedTexts) : Prop :=
  ∃ embed footer, Json.get message (ofString "embeds") = some (.arr [.obj embed]) ∧
    textAt embed "title" = some texts.title ∧ textAt embed "description" = some texts.description ∧
    Json.get embed (ofString "footer") = some (.obj footer) ∧
    textAt footer "text" = some texts.footer ∧
    (embedFields embed).map fieldTexts = texts.fields.map some

/-- Title, description, footer, field names and field values together. -/
def EmbedTexts.total (texts : EmbedTexts) : ℕ :=
  texts.title.length + texts.description.length + texts.footer.length +
    (texts.fields.map fun field => field.1.length + field.2.length).sum

/-- Discord's limits. -/
structure DiscordLimits (texts : EmbedTexts) : Prop where
  title : 1 ≤ texts.title.length ∧ texts.title.length ≤ 256
  count : texts.fields.length ≤ 25
  names : ∀ field ∈ texts.fields, 1 ≤ field.1.length ∧ field.1.length ≤ 256
  values : ∀ field ∈ texts.fields, 1 ≤ field.2.length ∧ field.2.length ≤ 1024
  total : texts.total ≤ 6000

/-- The text of a value: a string as it is, anything else as JSON, and a dash for no text. -/
def renderedValue (value : Json) : PyStr :=
  let rendered :=
    match value with
    | .str s => s
    | value => value.dumps (ofString ", ") (ofString ": ")
  if rendered = [] then ofString "—" else rendered

/-- Discord accepts the message, and each of the first 25 entries of the payload has a field that
starts like it. -/
def DiscordAccepts (payload message : JsonObject) : Prop :=
  ∃ texts, HasTexts message texts ∧ DiscordLimits texts ∧
    List.Forall₂ (fun item field => field.1 <+: item.1 ∧ field.2 <+: renderedValue item.2)
      (payload.take 25) texts.fields

/-- The characters of the field for an entry. -/
def fieldSize (item : PyStr × Json) : ℕ :=
  min item.1.length 256 + min (renderedValue item.2).length 1024

/-- The event fits an embed: 2 characters before the type, 42 in the description and 42 in the
footer. -/
structure FitsDiscord (eventType : PyStr) (payload : JsonObject) : Prop where
  title : eventType.length ≤ 254
  names : ∀ item ∈ payload.take 25, item.1 ≠ []
  total : 2 + eventType.length + 42 + 42 + ((payload.take 25).map fieldSize).sum ≤ 6000

/-! ## The texts of a message -/

/-- The texts that `to_discord_message` writes. -/
def writtenTexts (eventId : Uuid) (eventType : PyStr) (payload : JsonObject) : EmbedTexts where
  title := ofString "📨 " ++ eventType
  description := ofString "Delivered by the Reliable Webhook Platform"
  footer := ofString "event " ++ eventId.str
  fields := (payload.take 25).map fun item => (item.1.take 256, (renderedValue item.2).take 1024)

section Written

variable {eventId : Uuid} {eventType now : PyStr} {payload : JsonObject}

/-- The embed that `to_discord_message` writes. -/
def writtenEmbed (eventId : Uuid) (eventType : PyStr) (payload : JsonObject) (now : PyStr) :
    JsonObject :=
  let fields := (payload.take discordMaxFields).map discordField
  let embed : JsonObject :=
    [(ofString "title", .str (ofString "📨 " ++ eventType)),
      (ofString "description", .str (ofString "Delivered by the Reliable Webhook Platform")),
      (ofString "color", .int discordColor),
      (ofString "footer", .obj [(ofString "text", .str (ofString "event " ++ eventId.str))]),
      (ofString "timestamp", .str now)]
  if fields = [] then embed else embed ++ [(ofString "fields", .arr fields)]

theorem fieldTexts_discordField (item : PyStr × Json) : fieldTexts (discordField item) =
    some (item.1.take 256, (renderedValue item.2).take 1024) := rfl

theorem embedFields_writtenEmbed : embedFields (writtenEmbed eventId eventType payload now) =
    (payload.take 25).map discordField := by
  unfold writtenEmbed
  dsimp only
  split
  · next h => exact h.symm
  · rfl

theorem textAt_writtenEmbed :
    textAt (writtenEmbed eventId eventType payload now) "title" =
        some (ofString "📨 " ++ eventType) ∧
      textAt (writtenEmbed eventId eventType payload now) "description" =
        some (ofString "Delivered by the Reliable Webhook Platform") ∧
      Json.get (writtenEmbed eventId eventType payload now) (ofString "footer") =
        some (.obj [(ofString "text", .str (ofString "event " ++ eventId.str))]) := by
  unfold writtenEmbed
  dsimp only
  split
  · exact ⟨rfl, rfl, rfl⟩
  · exact ⟨rfl, rfl, rfl⟩

/-- **The texts of the message** are the ones that are written. -/
theorem hasTexts_iff {texts : EmbedTexts} :
    HasTexts (toDiscordMessage eventId eventType payload now) texts ↔
      texts = writtenTexts eventId eventType payload := by
  have hembeds : Json.get (toDiscordMessage eventId eventType payload now) (ofString "embeds") =
      some (.arr [.obj (writtenEmbed eventId eventType payload now)]) := rfl
  have hfields : ((payload.take 25).map discordField).map fieldTexts =
      (writtenTexts eventId eventType payload).fields.map some := by
    simp only [writtenTexts, List.map_map]
    exact List.map_congr_left fun item _ => fieldTexts_discordField item
  obtain ⟨htitle, hdescription, hfooter⟩ :=
    @textAt_writtenEmbed eventId eventType now payload
  constructor
  · rintro ⟨embed, footer, hembed, h₁, h₂, h₃, h₄, h₅⟩
    rw [hembeds, Option.some.injEq, Json.arr.injEq, List.cons.injEq, Json.obj.injEq] at hembed
    obtain ⟨rfl, -⟩ := hembed
    rw [hfooter, Option.some.injEq, Json.obj.injEq] at h₃
    subst h₃
    rw [embedFields_writtenEmbed, hfields] at h₅
    obtain ⟨title, description, footer, fields⟩ := texts
    obtain rfl := Option.some.inj (htitle.symm.trans h₁)
    obtain rfl := Option.some.inj (hdescription.symm.trans h₂)
    obtain rfl : ofString "event " ++ eventId.str = footer := Option.some.inj h₄
    obtain rfl := List.map_injective_iff.2 (Option.some_injective _) h₅
    rfl
  · rintro rfl
    refine ⟨_, _, hembeds, htitle, hdescription, hfooter, rfl, ?_⟩
    rw [embedFields_writtenEmbed, hfields]

theorem length_uuid_str (u : Uuid) : u.str.length = 36 := by
  simp [Uuid.str]

theorem length_writtenTexts :
    (writtenTexts eventId eventType payload).title.length = 2 + eventType.length ∧
      (writtenTexts eventId eventType payload).description.length = 42 ∧
      (writtenTexts eventId eventType payload).footer.length = 42 := by
  have hemoji : (ofString "📨 ").length = 2 := by decide
  have hdescription : (ofString "Delivered by the Reliable Webhook Platform").length = 42 := by decide
  have hevent : (ofString "event ").length = 6 := by decide
  refine ⟨?_, hdescription, ?_⟩
  · simp only [writtenTexts, List.length_append, hemoji]
  · simp only [writtenTexts, List.length_append, hevent, length_uuid_str]

theorem total_writtenTexts : (writtenTexts eventId eventType payload).total =
    2 + eventType.length + 42 + 42 + ((payload.take 25).map fieldSize).sum := by
  obtain ⟨htitle, hdescription, hfooter⟩ := @length_writtenTexts eventId eventType payload
  have hfields : ((writtenTexts eventId eventType payload).fields.map
      fun field => field.1.length + field.2.length) = (payload.take 25).map fieldSize := by
    simp only [writtenTexts, List.map_map]
    refine List.map_congr_left fun item _ => ?_
    simp only [Function.comp_apply, List.length_take, fieldSize, min_comm]
  rw [EmbedTexts.total, htitle, hdescription, hfooter, hfields]

theorem renderedValue_ne_nil (value : Json) : renderedValue value ≠ [] := by
  have hdash : ∀ s : PyStr, (if s = [] then ofString "—" else s) ≠ [] := by
    intro s
    split
    · decide
    · next h => exact h
  exact hdash _

/-- **Discord's limits** hold of the texts that are written if the event fits. -/
theorem discordLimits_writtenTexts_iff :
    DiscordLimits (writtenTexts eventId eventType payload) ↔ FitsDiscord eventType payload := by
  obtain ⟨htitle, -, -⟩ := @length_writtenTexts eventId eventType payload
  constructor
  · intro h
    refine ⟨?_, fun item hitem hempty => ?_, total_writtenTexts ▸ h.total⟩
    · have := h.title.2
      omega
    · have hname := (h.names _ (List.mem_map_of_mem hitem)).1
      simp [hempty] at hname
  · intro h
    refine ⟨⟨by omega, ?_⟩, ?_, ?_, ?_, total_writtenTexts ▸ h.total⟩
    · have := h.title
      omega
    · simp [writtenTexts]
    · rintro field hfield
      obtain ⟨item, hitem, rfl⟩ := List.mem_map.1 hfield
      have hne := List.length_pos_iff.2 (h.names item hitem)
      simp only [List.length_take]
      omega
    · rintro field hfield
      obtain ⟨item, hitem, rfl⟩ := List.mem_map.1 hfield
      have hne := List.length_pos_iff.2 (renderedValue_ne_nil item.2)
      simp only [List.length_take]
      omega

end Written

/-- **Discord accepts the message of an event** exactly if the event fits an embed. -/
theorem discordAccepts_iff (eventId : Uuid) (eventType : PyStr) (payload : JsonObject)
    (now : PyStr) :
    DiscordAccepts payload (toDiscordMessage eventId eventType payload now) ↔
      FitsDiscord eventType payload := by
  have hcuts : List.Forall₂ (fun item field => field.1 <+: item.1 ∧
      field.2 <+: renderedValue item.2) (payload.take 25)
      (writtenTexts eventId eventType payload).fields := by
    unfold writtenTexts
    dsimp only
    generalize payload.take 25 = items
    induction items with
    | nil => exact .nil
    | cons item items ih => exact .cons ⟨List.take_prefix _ _, List.take_prefix _ _⟩ ih
  rw [← @discordLimits_writtenTexts_iff eventId]
  constructor
  · rintro ⟨texts, htexts, hlimits, -⟩
    rwa [hasTexts_iff.1 htexts] at hlimits
  · exact fun hlimits => ⟨_, hasTexts_iff.2 rfl, hlimits, hcuts⟩

/-- A type of 255 characters. -/
def longType : PyStr := List.replicate 255 (char 'x')

/-- A type of the greatest length that is admitted makes a title that is too long. -/
theorem not_discordAccepts : ¬ ∀ (eventId : Uuid) (eventType : PyStr) (payload : JsonObject)
    (now : PyStr), 1 ≤ eventType.length → eventType.length ≤ 255 →
      DiscordAccepts payload (toDiscordMessage eventId eventType payload now) := by
  intro hall
  have hlength : longType.length = 255 := List.length_replicate
  obtain ⟨texts, htexts, hlimits, -⟩ := hall (.ofNat 0) longType [] [] (by omega) (by omega)
  have htitle := hlimits.title.2
  rw [hasTexts_iff.1 htexts, length_writtenTexts.1] at htitle
  omega

end Hookit
