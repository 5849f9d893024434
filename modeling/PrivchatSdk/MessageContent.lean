import PrivchatSdk.Store.Change

/-!
# The typed projection of a stored message

A message is stored as a content text and an extra text, either of which may be
JSON.  `projectStoredMessage` looks a field up in the JSON object of the content,
in the `metadata` of the extra and in the extra itself, in this order; the
content only counts as text where none of them has a `content` or `text`.

Reading and printing JSON, and the scan for links and numbers, are parameters;
everything that happens to the JSON values is defined here.
-/

namespace PrivchatSdk

section Json

/-- A JSON value; a number that is no integer keeps its text. -/
inductive Json where
  | null
  | bool (b : Bool)
  | int (n : Int)
  | float (text : String)
  | str (s : String)
  | arr (items : List Json)
  | obj (members : List (String × Json))

namespace Json

def get (k : String) : Json → Option Json
  | .obj members => (members.find? (fun m => m.1 == k)).map Prod.snd
  | _ => none

def isObject : Json → Bool
  | .obj _ => true
  | _ => false

def isNull : Json → Bool
  | .null => true
  | _ => false

def asStr : Json → Option String
  | .str s => some s
  | _ => none

def asU64 : Json → Option Nat
  | .int n => if 0 ≤ n ∧ n < 2 ^ 64 then some n.toNat else none
  | _ => none

def asI64 : Json → Option Int
  | .int n => if -(2 ^ 63) ≤ n ∧ n < 2 ^ 63 then some n else none
  | _ => none

def asArray : Json → Option (List Json)
  | .arr items => some items
  | _ => none

def containsKey (k : String) (v : Json) : Bool :=
  (v.get k).isSome

end Json

end Json

section Text

/-- The white space of Unicode, which `trim` takes away. -/
def isWhiteSpace (c : Char) : Bool :=
  let n := c.toNat
  (decide (9 ≤ n) && decide (n ≤ 13)) || n == 0x20 || n == 0x85 || n == 0xA0 ||
    n == 0x1680 || (decide (0x2000 ≤ n) && decide (n ≤ 0x200A)) ||
    n == 0x2028 || n == 0x2029 || n == 0x202F || n == 0x205F || n == 0x3000

def trimStart (text : String) : String :=
  String.ofList (text.toList.dropWhile isWhiteSpace)

def trim (text : String) : String :=
  String.ofList
    ((text.toList.dropWhile isWhiteSpace).reverse.dropWhile isWhiteSpace).reverse

/-- `trim_matches('"')`. -/
def trimQuotes (text : String) : String :=
  String.ofList
    ((text.toList.dropWhile (· == '"')).reverse.dropWhile (· == '"')).reverse

/-- The value of decimal digits, if there are any and nothing else. -/
def parseDigits : List Char → Option Nat
  | [] => none
  | digits =>
      if digits.all Char.isDigit then
        some (digits.foldl (fun n c => n * 10 + (c.toNat - '0'.toNat)) 0)
      else
        none

/-- `str::parse::<u64>`. -/
def parseU64 (text : String) : Option Nat :=
  let digits := match text.toList with
    | '+' :: rest => rest
    | rest => rest
  (parseDigits digits).filter (fun n => decide (n < 2 ^ 64))

/-- `str::parse::<i64>`. -/
def parseI64 (text : String) : Option Int :=
  let value : Option Int := match text.toList with
    | '+' :: rest => (parseDigits rest).map Int.ofNat
    | '-' :: rest => (parseDigits rest).map (fun n => -Int.ofNat n)
    | rest => (parseDigits rest).map Int.ofNat
  value.filter (fun n => decide (-(2 ^ 63) ≤ n) && decide (n < 2 ^ 63))

end Text

section Codec

structure MessageTextEntity where
  kind : String
  start : Nat
  stop : Nat
  text : String
  value : String
  userId : Option Nat
  deriving DecidableEq, Repr

/--
Reading and printing JSON, and the scan of a text for links, addresses, numbers
and mentions.  The text that replaces a revoked message is no JSON.
-/
structure Codec where
  parse : String → Option Json
  print : Json → String
  scanEntities : String → List Nat → List MessageTextEntity
  parse_revoked : parse revokedContent = none

variable (codec : Codec)

/-- `parse_object`. -/
def Codec.parseObject (raw : String) : Option Json :=
  (codec.parse raw).filter Json.isObject

/-- `looks_like_json`. -/
def Codec.looksLikeJson (value : String) : Bool :=
  let trimmed := trimStart value
  match trimmed.toList with
  | '{' :: _ => (codec.parse trimmed).isSome
  | '[' :: _ => (codec.parse trimmed).isSome
  | _ => false

/-- `value_string`. -/
def valueString (v : Json) : Option String :=
  (v.asStr.or (v.asU64.map toString)).or (v.asI64.map toString)

/-- The markers of a message envelope. -/
def envelopeMarkers : List String :=
  ["metadata", "reply_to_message_id", "mentioned_user_ids", "message_source"]

structure Envelope where
  text : String
  replyTo : Option String
  mentions : List Nat
  deriving DecidableEq, Repr

/-- A content that is no envelope is its own text. -/
def Envelope.plain (raw : String) : Envelope where
  text := raw
  replyTo := none
  mentions := []

/-- `decode_envelope`. -/
def Codec.decodeEnvelope (raw : String) : Envelope :=
  match codec.parseObject raw with
  | none => .plain raw
  | some value =>
      if envelopeMarkers.any (fun k => value.containsKey k) then
        match (value.get "content").bind Json.asStr with
        | none => .plain raw
        | some text =>
            { text := text
              replyTo := (value.get "reply_to_message_id").bind valueString
              mentions := (((value.get "mentioned_user_ids").bind
                Json.asArray).getD []).filterMap Json.asU64 }
      else
        .plain raw

end Codec

section Lookups

/-- `find`: the first source that has one of the keys. -/
def findIn (sources : List (Option Json)) (keys : List String) : Option Json :=
  sources.findSome? (fun source =>
    source.bind (fun v => keys.findSome? (fun k => v.get k)))

/-- `string_at`. -/
def stringAt (sources : List (Option Json)) (keys : List String) :
    Option String :=
  (findIn sources keys).bind valueString

/-- `u64_at`. -/
def u64At (sources : List (Option Json)) (keys : List String) : Option Nat :=
  (findIn sources keys).bind (fun v => v.asU64.or (v.asStr.bind parseU64))

/-- `i64_at`. -/
def i64At (sources : List (Option Json)) (keys : List String) : Option Int :=
  (findIn sources keys).bind (fun v => v.asI64.or (v.asStr.bind parseI64))

/-- `i32_at`. -/
def i32At (sources : List (Option Json)) (keys : List String) : Option Int :=
  (i64At sources keys).filter
    (fun n => decide (-(2 ^ 31) ≤ n) && decide (n < 2 ^ 31))

/-- `u64_list_at`. -/
def u64ListAt (sources : List (Option Json)) (key : String) : List Nat :=
  (((findIn sources [key]).bind Json.asArray).getD []).filterMap
    (fun v => v.asU64.or (v.asStr.bind parseU64))

structure MessageContentRef where
  kind : String
  targetId : Option String
  text : Option String
  deriving DecidableEq, Repr

/-- `refs_at`. -/
def refsAt (sources : List (Option Json)) : List MessageContentRef :=
  (((findIn sources ["refs"]).bind Json.asArray).getD []).filterMap (fun v =>
    ((v.get "type").bind Json.asStr).map (fun kind =>
      { kind := kind
        targetId := (v.get "target_id").bind valueString
        text := (v.get "text").bind Json.asStr }))

end Lookups

section Projection

/-- The projection, without the coordinates, which are floating-point numbers. -/
structure MessageContentProjection where
  kind : String
  text : String
  entities : List MessageTextEntity
  replyToMessageId : Option String
  mentionedUserIds : List Nat
  attachmentUrl : Option String
  attachmentFileId : Option Nat
  thumbnailUrl : Option String
  thumbnailFileId : Option Nat
  fileName : Option String
  fileSize : Option Int
  duration : Option Int
  width : Option Int
  height : Option Int
  coordinateSystem : Option String
  locationName : Option String
  address : Option String
  poiId : Option String
  poiSource : Option String
  linkUrl : Option String
  linkTitle : Option String
  linkDescription : Option String
  contactUserId : Option Nat
  contactName : Option String
  contactAvatarUrl : Option String
  systemTemplate : Option String
  systemRefs : List MessageContentRef
  moneyRefId : Option String
  moneyTitle : Option String
  moneySummary : Option String
  moneyStatus : Option String
  moneyAmountText : Option String
  moneyScene : Option String
  moneyType : Option Int
  deriving DecidableEq, Repr

/-- `kind_name`. -/
def kindName (messageType : Int) : String :=
  if messageType = 0 then "text"
  else if messageType = 1 then "voice"
  else if messageType = 2 then "image"
  else if messageType = 3 then "video"
  else if messageType = 4 then "file"
  else if messageType = 5 then "system"
  else if messageType = 6 then "sticker"
  else if messageType = 7 then "contact"
  else if messageType = 8 then "location"
  else if messageType = 9 then "link"
  else if messageType = 10 then "forward"
  else if messageType = 11 then "red_packet"
  else if messageType = 12 then "money_transfer"
  else "unknown"

/-- `is_attachment_placeholder`. -/
def isAttachmentPlaceholder (messageType : Int) (text : String) : Bool :=
  if messageType = 1 then trim text == "[语音]"
  else if messageType = 2 then trim text == "[图片]"
  else if messageType = 3 then trim text == "[视频]"
  else if messageType = 4 then trim text == "[文件]"
  else false

variable (codec : Codec)

/-- Where the fields of a message are looked up: content, metadata, extra. -/
def Codec.sources (content extra : String) : List (Option Json) :=
  let object := codec.parseObject extra
  [codec.parseObject (codec.decodeEnvelope content).text,
    object.bind (fun v => v.get "metadata"), object]

/-- The fields that every type of message has. -/
def Codec.commonFields (message : StoredMessage) : MessageContentProjection :=
  let envelope := codec.decodeEnvelope message.content
  let sources := codec.sources message.content message.extra
  let mentions := if envelope.mentions.isEmpty then
      u64ListAt sources "mentioned_user_ids"
    else envelope.mentions
  { kind := kindName message.messageType
    text := envelope.text
    entities := codec.scanEntities envelope.text mentions
    replyToMessageId :=
      envelope.replyTo.or (stringAt sources ["reply_to_message_id"])
    mentionedUserIds := mentions
    attachmentUrl := stringAt sources ["url", "attachment_url"]
    attachmentFileId := u64At sources ["file_id", "attachment_file_id"]
    thumbnailUrl := stringAt sources ["thumbnail_url", "thumbnail"]
    thumbnailFileId := u64At sources ["thumbnail_file_id"]
    fileName := stringAt sources ["file_name", "name"]
    fileSize := i64At sources ["file_size", "size"]
    duration := i32At sources ["duration"]
    width := i32At sources ["width"]
    height := i32At sources ["height"]
    coordinateSystem := stringAt sources ["coordinate_system"]
    locationName := stringAt sources ["name"]
    address := stringAt sources ["address"]
    poiId := stringAt sources ["poi_id"]
    poiSource := stringAt sources ["poi_source"]
    linkUrl := stringAt sources ["url"]
    linkTitle := stringAt sources ["title"]
    linkDescription := stringAt sources ["description"]
    contactUserId := u64At sources ["user_id", "userId"]
    contactName := stringAt sources ["name", "nickname"]
    contactAvatarUrl := stringAt sources ["avatar", "avatar_url"]
    systemTemplate := none
    systemRefs := []
    moneyRefId := none
    moneyTitle := none
    moneySummary := none
    moneyStatus := none
    moneyAmountText := none
    moneyScene := none
    moneyType := none }

/-- Show a text of one's own in place of the content. -/
def Codec.showText
    (body : MessageContentProjection) (text : String) :
    MessageContentProjection :=
  { body with
    text := text
    entities := codec.scanEntities text body.mentionedUserIds }

/-- A system message; its payload is never shown. -/
def Codec.systemFields
    (sources : List (Option Json)) (body : MessageContentProjection) :
    MessageContentProjection :=
  let template := stringAt sources ["template"]
  let refs := refsAt sources
  { body with
    systemTemplate := template
    systemRefs := refs
    text := match stringAt sources ["content", "text", "tip"], template with
      | some value, _ => value
      | none, some template => template
      | none, none => if codec.looksLikeJson body.text then "" else body.text
    moneyRefId := (refs.find? (fun r => r.kind == "red_packet")).bind
      (fun r => r.targetId) }

/-- A money card; its preview is the title or the summary. -/
def moneyFields
    (sources : List (Option Json)) (body : MessageContentProjection) :
    MessageContentProjection :=
  let title := stringAt sources ["title"]
  let summary := stringAt sources ["summary"]
  { body with
    moneyRefId := stringAt sources ["redPacketId", "transferId"]
    moneyTitle := title
    moneySummary := summary
    moneyStatus := stringAt sources ["status"]
    moneyAmountText := stringAt sources ["amountText"]
    moneyScene := stringAt sources ["scene"]
    moneyType := i32At sources ["type"]
    text := (title.or summary).getD "" }

/-- Text and caption of the other types. -/
def Codec.captionFields
    (sources : List (Option Json)) (messageType : Int)
    (body : MessageContentProjection) : MessageContentProjection :=
  match stringAt sources ["caption"] with
  | some caption => codec.showText body caption
  | none =>
      if isAttachmentPlaceholder messageType body.text ||
          codec.looksLikeJson body.text then
        { body with text := "", entities := [] }
      else
        body

/-- `project_stored_message`. -/
def Codec.projectStoredMessage (message : StoredMessage) :
    MessageContentProjection :=
  let sources := codec.sources message.content message.extra
  let body := codec.commonFields message
  if message.messageType = 5 then
    codec.systemFields sources body
  else if message.messageType = 11 ∨ message.messageType = 12 then
    moneyFields sources body
  else if message.messageType = 0 then
    codec.showText body ((stringAt sources ["content", "text"]).getD body.text)
  else
    codec.captionFields sources message.messageType body

end Projection

section Normalize

variable (codec : Codec)

/-- `json_get_string`. -/
def Codec.jsonGetString (value : Json) (keys : List String) : Option String :=
  keys.findSome? (fun key =>
    (value.get key).bind (fun v =>
      match v.asStr with
      | some s => some s
      | none => if v.isNull then none else some (trimQuotes (codec.print v))))

/-- `decode_legacy_message_envelope`. -/
def Codec.decodeLegacyMessageEnvelope (text : String) : Option Json :=
  let trimmed := trim text
  match trimmed.toList with
  | '{' :: _ =>
      (codec.parseObject trimmed).filter (fun value =>
        ((value.get "content").bind Json.asStr).isSome &&
          envelopeMarkers.any (fun k => value.containsKey k))
  | _ => none

/--
The content and the extra of a payload that is no text; the five lookups of the
source are one for the first of three keys.
-/
def Codec.normalizedObject (payload : Json) : String × Option String :=
  match payload with
  | .null => ("", none)
  | .obj _ =>
      ((codec.jsonGetString payload ["content", "text", "body"]).getD "",
        some (codec.print payload))
  | .arr _ => ("", some (codec.print payload))
  | .str text => (text, none)
  | other => (codec.print other, none)

/-- `normalized_message_content_and_extra`. -/
def Codec.normalizedMessageContentAndExtra (payload : Json) :
    String × Option String :=
  match payload with
  | .str text =>
      match codec.decodeLegacyMessageEnvelope text with
      | some envelope => codec.normalizedObject envelope
      | none => (text, none)
  | payload => codec.normalizedObject payload

end Normalize

section TextMessages

variable (codec : Codec)

/-- The text that a content stands for. -/
def Codec.text (content : String) : String :=
  (codec.decodeEnvelope content).text

/-- No `content` or `text` member that is looked up first says something else. -/
def Codec.SaysText (content extra : String) : Prop :=
  ∀ v, stringAt (codec.sources content extra) ["content", "text"] = some v →
    v = codec.text content

/-- What the extra of a message adds to the lookups. -/
def Codec.extraSources (extra : String) : List (Option Json) :=
  let object := codec.parseObject extra
  [object.bind (fun v => v.get "metadata"), object]

/-- The keys of the texts, addresses and names that a projection shows. -/
def shownStrings : List (List String) :=
  [["reply_to_message_id"], ["url", "attachment_url"],
    ["thumbnail_url", "thumbnail"], ["file_name", "name"], ["coordinate_system"],
    ["name"], ["address"], ["poi_id"], ["poi_source"], ["url"], ["title"],
    ["description"], ["name", "nickname"], ["avatar", "avatar_url"]]

/-- The keys of the files and users that a projection shows. -/
def shownIds : List (List String) :=
  [["file_id", "attachment_file_id"], ["thumbnail_file_id"], ["user_id", "userId"]]

/-- The keys of the measures that a projection shows. -/
def shownMeasures : List (List String) :=
  [["duration"], ["width"], ["height"]]

/-- The extra adds nothing to what the projection of the placeholder shows. -/
structure Codec.SilentExtra (extra : String) : Prop where
  text : ∀ v, stringAt (codec.extraSources extra) ["content", "text"] = some v →
    v = revokedContent
  mentions : u64ListAt (codec.extraSources extra) "mentioned_user_ids" = []
  strings : ∀ keys ∈ shownStrings, stringAt (codec.extraSources extra) keys = none
  ids : ∀ keys ∈ shownIds, u64At (codec.extraSources extra) keys = none
  size : i64At (codec.extraSources extra) ["file_size", "size"] = none
  measures : ∀ keys ∈ shownMeasures, i32At (codec.extraSources extra) keys = none

/-- The projection of the placeholder alone: every other field is empty. -/
def Codec.placeholder : MessageContentProjection where
  kind := kindName 0
  text := revokedContent
  entities := codec.scanEntities revokedContent []
  replyToMessageId := none
  mentionedUserIds := []
  attachmentUrl := none
  attachmentFileId := none
  thumbnailUrl := none
  thumbnailFileId := none
  fileName := none
  fileSize := none
  duration := none
  width := none
  height := none
  coordinateSystem := none
  locationName := none
  address := none
  poiId := none
  poiSource := none
  linkUrl := none
  linkTitle := none
  linkDescription := none
  contactUserId := none
  contactName := none
  contactAvatarUrl := none
  systemTemplate := none
  systemRefs := []
  moneyRefId := none
  moneyTitle := none
  moneySummary := none
  moneyStatus := none
  moneyAmountText := none
  moneyScene := none
  moneyType := none

variable {codec}

/-- The text of a text message: a member named so, or the content. -/
theorem projectStoredMessage_text
    {m : StoredMessage} (htype : m.messageType = 0) :
    (codec.projectStoredMessage m).text =
      (stringAt (codec.sources m.content m.extra) ["content", "text"]).getD
        (codec.text m.content) := by
  simp [Codec.projectStoredMessage, htype, Codec.showText, Codec.commonFields,
    Codec.text]

/-- The projection shows the content exactly if no member overrides it. -/
theorem projectStoredMessage_text_iff
    {m : StoredMessage} (htype : m.messageType = 0) :
    (codec.projectStoredMessage m).text = codec.text m.content ↔
      codec.SaysText m.content m.extra := by
  rw [projectStoredMessage_text htype, Codec.SaysText]
  cases stringAt (codec.sources m.content m.extra) ["content", "text"] with
  | none =>
      simp
  | some v =>
      simp

/-- An earlier source comes first. -/
theorem findIn_cons
    (source : Option Json) (sources : List (Option Json)) (keys : List String) :
    findIn (source :: sources) keys =
      (findIn [source] keys).or (findIn sources keys) := by
  simp only [findIn, List.findSome?_cons, List.findSome?_nil]
  cases source.bind (fun v => keys.findSome? (fun k => v.get k)) with
  | none =>
      rfl
  | some v =>
      rfl

theorem findIn_none_cons (sources : List (Option Json)) (keys : List String) :
    findIn (none :: sources) keys = findIn sources keys := by
  simp [findIn]

theorem decodeEnvelope_revokedContent :
    codec.decodeEnvelope revokedContent = .plain revokedContent := by
  simp [Codec.decodeEnvelope, Codec.parseObject, codec.parse_revoked]

/-- The placeholder adds nothing to the lookups. -/
theorem findIn_sources_revokedContent (extra : String) (keys : List String) :
    findIn (codec.sources revokedContent extra) keys =
      findIn (codec.extraSources extra) keys := by
  have hobject : codec.parseObject revokedContent = none := by
    simp [Codec.parseObject, codec.parse_revoked]
  simp only [Codec.sources, decodeEnvelope_revokedContent, Envelope.plain, hobject,
    findIn_none_cons]
  rfl

/-- A revoked text message shows the placeholder alone exactly if its extra is silent. -/
theorem projectStoredMessage_placeholder_iff
    {m : StoredMessage} (htype : m.messageType = 0)
    (hcontent : m.content = revokedContent) :
    codec.projectStoredMessage m = codec.placeholder ↔ codec.SilentExtra m.extra := by
  have hstring (keys : List String) :
      stringAt (codec.sources revokedContent m.extra) keys =
        stringAt (codec.extraSources m.extra) keys := by
    rw [stringAt, findIn_sources_revokedContent, stringAt]
  have hu64 (keys : List String) :
      u64At (codec.sources revokedContent m.extra) keys =
        u64At (codec.extraSources m.extra) keys := by
    rw [u64At, findIn_sources_revokedContent, u64At]
  have hi64 (keys : List String) :
      i64At (codec.sources revokedContent m.extra) keys =
        i64At (codec.extraSources m.extra) keys := by
    rw [i64At, findIn_sources_revokedContent, i64At]
  have hi32 (keys : List String) :
      i32At (codec.sources revokedContent m.extra) keys =
        i32At (codec.extraSources m.extra) keys := by
    rw [i32At, hi64, i32At]
  have hlist (key : String) :
      u64ListAt (codec.sources revokedContent m.extra) key =
        u64ListAt (codec.extraSources m.extra) key := by
    rw [u64ListAt, findIn_sources_revokedContent, u64ListAt]
  have htext : (codec.projectStoredMessage m).text = revokedContent ↔
      ∀ v, stringAt (codec.extraSources m.extra) ["content", "text"] = some v →
        v = revokedContent := by
    rw [projectStoredMessage_text htype, hcontent, hstring, Codec.text,
      decodeEnvelope_revokedContent]
    cases stringAt (codec.extraSources m.extra) ["content", "text"] with
    | none =>
        simp [Envelope.plain]
    | some v =>
        simp
  -- the projection field by field, with the lookups in the extra alone
  have hfields : codec.projectStoredMessage m = codec.placeholder ↔
      (codec.projectStoredMessage m).text = revokedContent ∧
        u64ListAt (codec.extraSources m.extra) "mentioned_user_ids" = [] ∧
        (∀ keys ∈ shownStrings,
          stringAt (codec.extraSources m.extra) keys = none) ∧
        (∀ keys ∈ shownIds, u64At (codec.extraSources m.extra) keys = none) ∧
        i64At (codec.extraSources m.extra) ["file_size", "size"] = none ∧
        ∀ keys ∈ shownMeasures,
          i32At (codec.extraSources m.extra) keys = none := by
    simp only [Codec.projectStoredMessage, htype, Codec.showText,
      Codec.commonFields, hcontent, decodeEnvelope_revokedContent, Envelope.plain,
      hstring, hu64, hi64, hi32, hlist, Codec.placeholder, shownStrings, shownIds,
      shownMeasures]
    constructor
    · intro h
      simp at h
      simp [h]
    · intro h
      simp at h
      simp [h]
  rw [hfields, htext]
  constructor
  · rintro ⟨h₁, h₂, h₃, h₄, h₅, h₆⟩
    exact ⟨h₁, h₂, h₃, h₄, h₅, h₆⟩
  · intro h
    exact ⟨h.text, h.mentions, h.strings, h.ids, h.size, h.measures⟩

/--
A message that came as an object with a `content` keeps showing it: whatever
plain text the content column is changed to, the copy in the extra comes first.
-/
theorem received_object_hides_content
    {payload : Json} {text : String}
    (hprint : codec.parse (codec.print payload) = some payload)
    (htext : payload.get "content" = some (.str text))
    (hmetadata : findIn [payload.get "metadata"] ["content", "text"] = none)
    {m : StoredMessage} (htype : m.messageType = 0)
    (hextra : m.extra = codec.print payload)
    (hcontent : codec.parseObject m.content = none) :
    (codec.projectStoredMessage m).text = text := by
  have hobject : codec.parseObject m.extra = some payload := by
    rw [hextra, Codec.parseObject, hprint]
    cases payload with
    | obj members =>
        rfl
    | _ =>
        cases htext
  have henvelope : (codec.decodeEnvelope m.content).text = m.content := by
    simp [Codec.decodeEnvelope, hcontent, Envelope.plain]
  have hfound : findIn (codec.sources m.content m.extra) ["content", "text"] =
      some (.str text) := by
    simp only [Codec.sources, henvelope, hcontent, hobject, findIn_none_cons,
      Option.bind_some]
    rw [findIn_cons, hmetadata, Option.none_or]
    simp [findIn, htext]
  rw [projectStoredMessage_text htype, stringAt, hfound]
  rfl

end TextMessages

section Sample

/-- JSON texts of which one is the object with the content "old". -/
def sampleCodec : Codec where
  parse text :=
    if text == "\x7b\"content\":\"old\"\x7d" then
      some (.obj [("content", .str "old")])
    else
      none
  print _ := "\x7b\"content\":\"old\"\x7d"
  scanEntities _ _ := []
  parse_revoked := by decide

end Sample

end PrivchatSdk
