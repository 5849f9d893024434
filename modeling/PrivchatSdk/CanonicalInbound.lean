import PrivchatSdk.SyncPayload

/-!
# One canonical message from three wire shapes

A message reaches the client as an item of a history page, as a commit of a
channel difference and as a push.  Each source has an adapter into
`CanonicalInboundMessage`, and one projection leads from there to the row.

`sources_agree_iff` says for which messages the adapters agree: the type name has
to be in the tables of the history path and, without canonical bytes, of the
difference path.
-/

namespace PrivchatSdk

open Receive

section Canonical

/-- One item of a history page or of the surroundings of a message. -/
structure MessageHistoryItem where
  messageId : Nat
  channelId : Nat
  senderId : Nat
  content : String
  messageType : String
  timestamp : Nat
  messageSeq : Option Int
  metadata : Option (List (String × Json))
  revoked : Bool

/-- The canonical form of a message from the server. -/
structure CanonicalInboundMessage where
  serverMessageId : Nat
  localMessageId : Nat
  channelId : Nat
  channelType : Int
  fromUid : Nat
  messageType : Int
  content : String
  extra : String
  pts : Int
  sentAtMs : Int
  sentAtPrecision : TimePrecision
  revoked : Bool

/-- What two sources of one message have to agree in. -/
structure SemanticProjection where
  serverMessageId : Nat
  channelId : Nat
  channelType : Int
  fromUid : Nat
  messageType : Int
  content : String
  metadata : Option Json
  pts : Int
  sentAtMs : Int
  revoked : Bool

/-- `agrees_with`: equal, but for a send time within the same second. -/
structure SemanticProjection.AgreesWith (a b : SemanticProjection) : Prop where
  serverMessageId : a.serverMessageId = b.serverMessageId
  channelId : a.channelId = b.channelId
  channelType : a.channelType = b.channelType
  fromUid : a.fromUid = b.fromUid
  messageType : a.messageType = b.messageType
  content : a.content = b.content
  metadata : a.metadata = b.metadata
  pts : a.pts = b.pts
  revoked : a.revoked = b.revoked
  sentAt : a.sentAtMs.tdiv 1000 = b.sentAtMs.tdiv 1000

/-- `MIN_PLAUSIBLE_MS`. -/
def minPlausibleMs : Int := 100000000000

/-- `normalize_sent_at_ms`; what is multiplied is too small to saturate. -/
def normalizeSentAtMs (value : Int) : Int :=
  if minPlausibleMs ≤ value then value
  else if 0 < value then value * 1000
  else 0

variable (codec : Codec)

/-- `build_extra_envelope`. -/
def Codec.buildExtraEnvelope (content : String) (metadata : Option Json) :
    String :=
  match metadata.filter (fun v => !v.isNull) with
  | some metadata =>
      codec.print (.obj [("content", .str content), ("metadata", metadata)])
  | none => ""

/-- `metadata`: the metadata of the extra, if it is there. -/
def Codec.extraMetadata (extra : String) : Option Json :=
  ((codec.parse extra).bind (fun v => v.get "metadata")).filter
    (fun v => !v.isNull)

/-- `semantic`. -/
def Codec.semantic (m : CanonicalInboundMessage) : SemanticProjection where
  serverMessageId := m.serverMessageId
  channelId := m.channelId
  channelType := m.channelType
  fromUid := m.fromUid
  messageType := m.messageType
  content := m.content
  metadata := codec.extraMetadata m.extra
  pts := m.pts
  sentAtMs := m.sentAtMs
  revoked := m.revoked

/-- `to_upsert_input`. -/
def CanonicalInboundMessage.toUpsertInput
    (m : CanonicalInboundMessage) (status : Int) (mimeType : Option String) :
    UpsertRemoteMessageInput where
  serverMessageId := m.serverMessageId
  localMessageId := m.localMessageId
  channelId := m.channelId
  channelType := if m.channelType = 0 then 1 else m.channelType
  timestamp := m.sentAtMs
  timestampPrecision := m.sentAtPrecision
  fromUid := m.fromUid
  messageType := m.messageType
  content := m.content
  status := status
  pts := m.pts
  setting := 0
  orderSeq := m.pts
  searchableWord := ""
  extra := m.extra
  mimeType := mimeType
  revoked := m.revoked

/-- `from_history_item`. -/
def Codec.fromHistoryItem
    (item : MessageHistoryItem) (channelType : Int) (typeOf : String → Int) :
    CanonicalInboundMessage where
  serverMessageId := item.messageId
  localMessageId := 0
  channelId := item.channelId
  channelType := channelType
  fromUid := item.senderId
  messageType := typeOf item.messageType
  content := item.content
  extra := codec.buildExtraEnvelope item.content (item.metadata.map .obj)
  pts := item.messageSeq.getD 0
  sentAtMs := normalizeSentAtMs (clampI64 item.timestamp)
  sentAtPrecision := .milliseconds
  revoked := item.revoked

/-- `from_sync_entity`. -/
def fromSyncEntity
    (serverMessageId localMessageId channelId : Nat) (channelType : Int)
    (fromUid : Nat) (messageType : Int) (content extra : String)
    (pts timestamp : Int) : CanonicalInboundMessage where
  serverMessageId := serverMessageId
  localMessageId := localMessageId
  channelId := channelId
  channelType := channelType
  fromUid := fromUid
  messageType := messageType
  content := content
  extra := extra
  pts := pts
  sentAtMs := normalizeSentAtMs timestamp
  sentAtPrecision := .milliseconds
  revoked := false

/-- `from_push`; the time counts seconds. -/
def fromPush
    (serverMessageId localMessageId channelId : Nat) (channelType : Int)
    (fromUid : Nat) (messageType : Int) (content extra : String)
    (messageSeq timestampSecs : Int) : CanonicalInboundMessage where
  serverMessageId := serverMessageId
  localMessageId := localMessageId
  channelId := channelId
  channelType := channelType
  fromUid := fromUid
  messageType := messageType
  content := content
  extra := extra
  pts := messageSeq
  sentAtMs := normalizeSentAtMs timestampSecs
  sentAtPrecision := .seconds
  revoked := false

/-- The mime type that a parsed content or extra names. -/
def mimeTypeOf (json : Json) : Option String :=
  let named (v : Option Json) : Option String :=
    ((v.bind (fun v => v.get "mime_type")).bind Json.asStr).filter
      (fun s => s != "")
  (named (json.get "metadata")).or (named (some json))

/-- `extract_mime_type_from_json`. -/
def Codec.extractMimeTypeFromJson (content extra : String) : Option String :=
  [content, extra].findSome? (fun src =>
    if src.isEmpty then none else (codec.parse src).bind mimeTypeOf)

end Canonical

section Adapters

variable (codec : Codec)

/-- `history_item_to_upsert_input`. -/
def Codec.historyItemToUpsertInput
    (item : MessageHistoryItem) (channelType : Int) :
    UpsertRemoteMessageInput :=
  let canonical := codec.fromHistoryItem item
    (if channelType = 0 then 1 else channelType) wireMessageTypeToI32
  canonical.toUpsertInput 2
    (codec.extractMimeTypeFromJson canonical.content canonical.extra)

/-- `i32::try_from(n).unwrap_or(0)` of the type of a push. -/
def pushMessageType (n : Nat) : Int :=
  if n < 2 ^ 31 then n else 0

/-- The canonical message that a push is turned into first. -/
def Codec.pushCanonical (push : PushMessageRequest) : CanonicalInboundMessage :=
  let (content, extra) := codec.payloadBytesToMessageContentAndExtra push.payload
  fromPush push.serverMessageId push.localMessageId push.channelId
    push.channelType push.fromUid (pushMessageType push.messageType) content
    (extra.getD "") push.messageSeq push.timestamp

/-- `push_message_to_sync_item`. -/
def Codec.pushMessageToSyncItem (push : PushMessageRequest) :
    SyncEntityItem MessageSyncPayload :=
  let canonical := codec.pushCanonical push
  { buildMessageSyncItem canonical.serverMessageId canonical.localMessageId
      canonical.channelId canonical.channelType canonical.sentAtMs
      canonical.fromUid canonical.messageType canonical.content
      (if canonical.extra.isEmpty then none else some canonical.extra) 2
      push.messageSeq (if push.needReceipt then 1 else 0) push.messageSeq with
    deleted := push.deleted }

/-- The commit that a timeline push stands for. -/
def canonicalPushCommit
    (push : PushMessageRequest) (event : CanonicalTimelineEvent) :
    ServerCommit where
  eventId := some push.serverMessageId
  pts := push.messageSeq
  serverMsgId := push.serverMessageId
  localMessageId := none
  channelId := push.channelId
  channelType := push.channelType
  messageType := ""
  content := .null
  serverTimestamp := push.timestamp * 1000
  senderId := push.fromUid
  canonicalEvent := some event

/-- What the message branch of `apply_sync_entities` does with an item. -/
inductive MessageItemAction where
  | skip
  | revoke (serverMessageId : Nat) (revoker : Option Nat)
  | upsert (input : UpsertRemoteMessageInput)

/-- The server id that a message item names. -/
def messageItemServerId (item : SyncEntityItem MessageSyncPayload) : Nat :=
  let p := item.payload.getD .default
  (((p.serverMessageId.or p.messageId).or p.id).or
    (parseEntityIdU64 item.entityId)).getD 0

/-- The canonical message of a message item. -/
def canonicalOfItem
    (scope : Option String) (nowMs : Int)
    (item : SyncEntityItem MessageSyncPayload) : CanonicalInboundMessage :=
  let p := item.payload.getD .default
  let channel := parseChannelScope scope
  fromSyncEntity (messageItemServerId item) (p.localMessageId.getD 0)
    ((p.channelId.or (channel.map Prod.snd)).getD 0)
    ((((((p.channelType.or p.typeField).or p.conversationType).or
      (channel.map Prod.fst)).map (fun v => if v = 0 then 1 else v))).getD 1)
    ((((p.fromUid.or p.senderId).or p.sender).or p.uid).getD 0)
    (p.messageType.getD 0) (((p.content.or p.text).or p.body).getD "")
    (p.extra.getD "") (p.pts.getD (wrapI64 item.version))
    (((p.timestamp.or p.createdAt).or p.sendTime).getD nowMs)

/-- The upsert of a message item. -/
def Codec.messageItemInput
    (scope : Option String) (nowMs : Int)
    (item : SyncEntityItem MessageSyncPayload) : UpsertRemoteMessageInput :=
  let p := item.payload.getD .default
  let canonical := canonicalOfItem scope nowMs item
  { canonical.toUpsertInput (p.status.getD 2)
      (codec.extractMimeTypeFromJson canonical.content canonical.extra) with
    setting := p.setting.getD 0
    orderSeq := p.orderSeq.getD (wrapI64 item.version)
    searchableWord := p.searchableWord.getD "" }

/-- The message branch of `apply_sync_entities`, up to its statements. -/
def Codec.messageItemAction
    (scope : Option String) (nowMs : Int)
    (item : SyncEntityItem MessageSyncPayload) : MessageItemAction :=
  let canonical := canonicalOfItem scope nowMs item
  if canonical.serverMessageId = 0 then .skip
  else if item.deleted then
    .revoke canonical.serverMessageId
      ((codec.parse canonical.content).bind
        (fun v => jsonGetU64 v ["revoked_by", "revoker"]))
  else if canonical.channelId = 0 then .skip
  else .upsert (codec.messageItemInput scope nowMs item)

end Adapters

section Sources

/--
A message on the server.  `legacy` is the envelope of its payload; sequence number
and send time in seconds fit into a push.
-/
structure ServerMessage where
  serverMessageId : Nat
  channelId : Nat
  channelType : Nat
  senderId : Nat
  type : ContentMessageType
  content : String
  metadata : Option (List (String × Json))
  legacy : Json
  pts : Nat
  sentAtMs : Nat
  revoked : Bool
  legacy_object : legacy.isObject = true
  legacy_content : legacy.get "content" = some (.str content)
  legacy_metadata :
    (legacy.get "metadata").filter (fun v => !v.isNull) = metadata.map .obj
  pts_lt : pts < 2 ^ 32
  sentAt_lt : sentAtMs / 1000 < 2 ^ 32

namespace ServerMessage

variable (m : ServerMessage)

/-- The item of the message in a history page, with or without its number. -/
def historyItem (numbered : Bool) : MessageHistoryItem where
  messageId := m.serverMessageId
  channelId := m.channelId
  senderId := m.senderId
  content := m.content
  messageType := m.type.wireName
  timestamp := m.sentAtMs
  messageSeq := if numbered then some m.pts else none
  metadata := m.metadata
  revoked := m.revoked

/-- The commit of the message, with or without canonical bytes. -/
def commit (canonical : Bool) (localMessageId : Option Nat) : ServerCommit where
  eventId := some m.serverMessageId
  pts := m.pts
  serverMsgId := m.serverMessageId
  localMessageId := localMessageId
  channelId := m.channelId
  channelType := m.channelType
  messageType := m.type.wireName
  content := m.legacy
  serverTimestamp := m.sentAtMs
  senderId := m.senderId
  canonicalEvent := if canonical then some (.newMessage m.type m.legacy) else none

/-- The push of the message; it can tell seconds only. -/
def push (localMessageId : Nat) (needReceipt : Bool) : PushMessageRequest where
  serverMessageId := m.serverMessageId
  localMessageId := localMessageId
  channelId := m.channelId
  channelType := m.channelType
  fromUid := m.senderId
  messageType := m.type.toI32.toNat
  messageSeq := m.pts
  timestamp := m.sentAtMs / 1000
  needReceipt := needReceipt
  deleted := false
  payload := .envelope m.legacy

/-- The item that the commit of the message becomes. -/
def commitItem (codec : Codec) (canonical : Bool) (localMessageId : Option Nat) :
    SyncEntityItem MessageSyncPayload :=
  commitMessageItem (m.commit canonical localMessageId)
    (if canonical then m.type.toI32
      else normalizedMessageTypeFromStr m.type.wireName)
    (codec.normalizedMessageContentAndExtra m.legacy)

end ServerMessage

end Sources

section Agreement

variable {codec : Codec} {m : ServerMessage}

/-- The commit of a message becomes its message item. -/
theorem syncItemFromDifferenceCommit_message
    (canonical : Bool) (localMessageId : Option Nat) :
    codec.syncItemFromDifferenceCommit (m.commit canonical localMessageId) =
      .message (m.commitItem codec canonical localMessageId) := by
  cases canonical with
  | true =>
      rfl
  | false =>
      have hname : m.type.wireName ∉
          ["message.revoke", "message_extra", "message_ext"] ∧
          m.type.wireName ∉
            ["message_reaction", "reaction", "message.reaction"] := by
        cases m.type <;> decide
      simp only [Codec.syncItemFromDifferenceCommit, ServerMessage.commit,
        Bool.false_eq_true, if_false, Codec.syncItemFromLegacyDifferenceCommit,
        hname.1, hname.2, ServerMessage.commitItem]

/-- A payload is an object: its content is shown, the whole is the extra. -/
theorem normalized_legacy :
    codec.normalizedMessageContentAndExtra m.legacy =
      (m.content, some (codec.print m.legacy)) := by
  have hcontent := m.legacy_content
  cases hlegacy : m.legacy with
  | obj members =>
      rw [hlegacy] at hcontent
      simp [Codec.normalizedMessageContentAndExtra, Codec.normalizedObject,
        Codec.jsonGetString, hcontent, Json.asStr]
  | _ =>
      rw [hlegacy] at hcontent
      cases hcontent

/-- The table of the history path knows eight of the names. -/
theorem wireMessageTypeToI32_wireName (t : ContentMessageType) :
    wireMessageTypeToI32 t.wireName = t.toI32 ↔
      t ∈ [.text, .image, .voice, .video, .file, .system, .redPacket,
        .moneyTransfer] := by
  cases t <;> decide

/-- The table of the difference path knows all names but those of money cards. -/
theorem normalizedMessageTypeFromStr_wireName (t : ContentMessageType) :
    normalizedMessageTypeFromStr t.wireName = t.toI32 ↔
      t ∉ [.redPacket, .moneyTransfer] := by
  cases t <;> decide

/-- A type fits into the number of a push. -/
theorem pushMessageType_toI32 (t : ContentMessageType) :
    pushMessageType t.toI32.toNat = t.toI32 := by
  cases t <;> rfl

/-- An item stores the type and the content of its canonical message. -/
theorem messageItemInput_content
    (scope : Option String) (nowMs : Int)
    (item : SyncEntityItem MessageSyncPayload) :
    (codec.messageItemInput scope nowMs item).messageType =
        (canonicalOfItem scope nowMs item).messageType ∧
      (codec.messageItemInput scope nowMs item).content =
        (canonicalOfItem scope nowMs item).content := by
  exact ⟨rfl, rfl⟩

/-- The item of a push keeps the type and the content. -/
theorem canonicalOfItem_push
    (scope : Option String) (nowMs : Int) (push : PushMessageRequest) :
    (canonicalOfItem scope nowMs (codec.pushMessageToSyncItem push)).messageType =
        (codec.pushCanonical push).messageType ∧
      (canonicalOfItem scope nowMs (codec.pushMessageToSyncItem push)).content =
        (codec.pushCanonical push).content := by
  exact ⟨rfl, rfl⟩

variable (codec m)

/-- The canonical message of the history item. -/
def ServerMessage.fromHistory (numbered : Bool) : CanonicalInboundMessage :=
  codec.fromHistoryItem (m.historyItem numbered)
    (if (m.channelType : Int) = 0 then 1 else m.channelType) wireMessageTypeToI32

/-- The canonical message of the commit. -/
def ServerMessage.fromDifference
    (scope : Option String) (nowMs : Int) (canonical : Bool)
    (localMessageId : Option Nat) : CanonicalInboundMessage :=
  canonicalOfItem scope nowMs (m.commitItem codec canonical localMessageId)

/--
The sources of a message agree: their canonical messages do, and so do the type
and the content that each of them stores.
-/
structure ServerMessage.SourcesAgree
    (numbered canonical : Bool) (scope : Option String) (nowMs : Int)
    (localMessageId : Option Nat) (push : PushMessageRequest) : Prop where
  history_difference :
    (codec.semantic (m.fromHistory codec numbered)).AgreesWith
      (codec.semantic
        (m.fromDifference codec scope nowMs canonical localMessageId))
  history_push :
    (codec.semantic (m.fromHistory codec numbered)).AgreesWith
      (codec.semantic (codec.pushCanonical push))
  difference_push :
    (codec.semantic
      (m.fromDifference codec scope nowMs canonical localMessageId)).AgreesWith
        (codec.semantic (codec.pushCanonical push))
  stored_difference :
    let stored := codec.messageItemInput scope nowMs
      (m.commitItem codec canonical localMessageId)
    let history := codec.historyItemToUpsertInput (m.historyItem numbered)
      m.channelType
    stored.messageType = history.messageType ∧ stored.content = history.content
  stored_push :
    let stored := codec.messageItemInput scope nowMs
      (codec.pushMessageToSyncItem push)
    let history := codec.historyItemToUpsertInput (m.historyItem numbered)
      m.channelType
    stored.messageType = history.messageType ∧ stored.content = history.content

/-- Type, state, number, channel and time are such that no adapter loses them. -/
structure ServerMessage.Uniform (numbered canonical : Bool) : Prop where
  historyType : m.type ∈ [.text, .image, .voice, .video, .file, .system,
    .redPacket, .moneyTransfer]
  commitType : canonical = true ∨ m.type ∉ [.redPacket, .moneyTransfer]
  revoked : m.revoked = false
  numbered : numbered = true ∨ m.pts = 0
  channelType : m.channelType ≠ 0
  sentAt : m.sentAtMs = 0 ∨ 100000000000 ≤ m.sentAtMs

variable {codec m}

theorem clampI64_eq {n : Nat} (h : n < 2 ^ 63) : clampI64 n = n := by
  unfold clampI64
  omega

/-- Whole seconds and milliseconds of one instant, read as either. -/
theorem normalizeSentAtMs_agree_iff
    {t : Nat} (hlt : t / 1000 < 2 ^ 32) :
    (normalizeSentAtMs t).tdiv 1000 =
        (normalizeSentAtMs ((t / 1000 : Nat) : Int)).tdiv 1000 ↔
      t = 0 ∨ 100000000000 ≤ t := by
  have hnonneg (v : Int) : 0 ≤ normalizeSentAtMs v := by
    unfold normalizeSentAtMs minPlausibleMs
    split
    · omega
    · split
      · omega
      · omega
  rw [Int.tdiv_eq_ediv_of_nonneg (hnonneg _),
    Int.tdiv_eq_ediv_of_nonneg (hnonneg _)]
  unfold normalizeSentAtMs minPlausibleMs
  -- the seconds of a push are below the limit and are always multiplied
  rw [if_neg (by omega : ¬ (100000000000 : Int) ≤ ((t / 1000 : Nat) : Int))]
  split
  · split
    · omega
    · omega
  · split
    · split
      · omega
      · omega
    · split
      · omega
      · omega

/-- The metadata that the history adapter wraps is the metadata it reads back. -/
theorem extraMetadata_history
    (hempty : codec.parse "" = none)
    (henvelope : ∀ members, m.metadata = some members →
      codec.parse (codec.print (.obj
          [("content", .str m.content), ("metadata", .obj members)])) =
        some (.obj [("content", .str m.content), ("metadata", .obj members)])) :
    codec.extraMetadata
        (codec.buildExtraEnvelope m.content (m.metadata.map .obj)) =
      m.metadata.map .obj := by
  cases hmeta : m.metadata with
  | none =>
      simp [Codec.buildExtraEnvelope, Codec.extraMetadata, hempty]
  | some members =>
      simp [Codec.buildExtraEnvelope, Codec.extraMetadata, Json.isNull,
        Option.filter, henvelope members hmeta, Json.get]

/-- The metadata of the payload is the metadata of the message. -/
theorem extraMetadata_legacy
    (hlegacy : codec.parse (codec.print m.legacy) = some m.legacy) :
    codec.extraMetadata (codec.print m.legacy) = m.metadata.map .obj := by
  rw [Codec.extraMetadata, hlegacy, Option.bind_some, m.legacy_metadata]

/-- What the message says, as far as a source takes it over. -/
def ServerMessage.said
    (m : ServerMessage) (channelType messageType pts : Int) (sentAtMs : Int)
    (revoked : Bool) : SemanticProjection where
  serverMessageId := m.serverMessageId
  channelId := m.channelId
  channelType := channelType
  fromUid := m.senderId
  messageType := messageType
  content := m.content
  metadata := m.metadata.map .obj
  pts := pts
  sentAtMs := sentAtMs
  revoked := revoked

theorem semantic_fromHistory
    (hempty : codec.parse "" = none)
    (henvelope : ∀ members, m.metadata = some members →
      codec.parse (codec.print (.obj
          [("content", .str m.content), ("metadata", .obj members)])) =
        some (.obj [("content", .str m.content), ("metadata", .obj members)]))
    (numbered : Bool) :
    codec.semantic (m.fromHistory codec numbered) =
      m.said (if (m.channelType : Int) = 0 then 1 else m.channelType)
        (wireMessageTypeToI32 m.type.wireName) (if numbered then m.pts else 0)
        (normalizeSentAtMs m.sentAtMs) m.revoked := by
  have hsent : m.sentAtMs < 2 ^ 63 := by
    have hlt := m.sentAt_lt
    omega
  have hpts : (m.historyItem numbered).messageSeq.getD 0 =
      if numbered then (m.pts : Int) else 0 := by
    cases numbered with
    | true =>
        rfl
    | false =>
        rfl
  simp only [Codec.semantic, ServerMessage.fromHistory, Codec.fromHistoryItem,
    hpts]
  simp only [ServerMessage.historyItem, extraMetadata_history hempty henvelope,
    clampI64_eq hsent, ServerMessage.said]

theorem semantic_fromDifference
    (hlegacy : codec.parse (codec.print m.legacy) = some m.legacy)
    (scope : Option String) (nowMs : Int) (canonical : Bool)
    (localMessageId : Option Nat) :
    codec.semantic
        (m.fromDifference codec scope nowMs canonical localMessageId) =
      m.said (if (m.channelType : Int) = 0 then 1 else m.channelType)
        (if canonical then m.type.toI32
          else normalizedMessageTypeFromStr m.type.wireName)
        m.pts (normalizeSentAtMs m.sentAtMs) false := by
  have hpts : m.pts < 2 ^ 63 := by
    have hlt := m.pts_lt
    omega
  simp [Codec.semantic, ServerMessage.fromDifference, canonicalOfItem,
    ServerMessage.commitItem, commitMessageItem, buildMessageSyncItem,
    fromSyncEntity, messageItemServerId, ServerMessage.commit, normalized_legacy,
    extraMetadata_legacy hlegacy, clampI64_eq hpts, ServerMessage.said]

theorem semantic_push
    (hlegacy : codec.parse (codec.print m.legacy) = some m.legacy)
    (localMessageId : Nat) (needReceipt : Bool) :
    codec.semantic (codec.pushCanonical (m.push localMessageId needReceipt)) =
      m.said m.channelType m.type.toI32 m.pts
        (normalizeSentAtMs ((m.sentAtMs / 1000 : Nat) : Int)) false := by
  simp only [Codec.semantic, Codec.pushCanonical, ServerMessage.push,
    Codec.payloadBytesToMessageContentAndExtra, normalized_legacy, fromPush,
    Option.getD_some, extraMetadata_legacy hlegacy, pushMessageType_toI32,
    ServerMessage.said]

/-- A said projection agrees with another in what they do not share. -/
theorem said_agreesWith_iff
    {channelType channelType' messageType messageType' pts pts' : Int}
    {sentAtMs sentAtMs' : Int} {revoked revoked' : Bool} :
    (m.said channelType messageType pts sentAtMs revoked).AgreesWith
        (m.said channelType' messageType' pts' sentAtMs' revoked') ↔
      channelType = channelType' ∧ messageType = messageType' ∧ pts = pts' ∧
        sentAtMs.tdiv 1000 = sentAtMs'.tdiv 1000 ∧ revoked = revoked' := by
  constructor
  · intro h
    exact ⟨h.channelType, h.messageType, h.pts, h.sentAt, h.revoked⟩
  · rintro ⟨hchannel, htype, hpts, hsent, hrevoked⟩
    exact ⟨rfl, rfl, hchannel, rfl, htype, rfl, rfl, hpts, hrevoked, hsent⟩

/--
The adapters of a message agree, and store one type and content, exactly for a
message that none of them loses a part of.
-/
theorem sources_agree_iff
    (hempty : codec.parse "" = none)
    (hlegacy : codec.parse (codec.print m.legacy) = some m.legacy)
    (henvelope : ∀ members, m.metadata = some members →
      codec.parse (codec.print (.obj
          [("content", .str m.content), ("metadata", .obj members)])) =
        some (.obj [("content", .str m.content), ("metadata", .obj members)]))
    (numbered canonical : Bool) (scope : Option String) (nowMs : Int)
    (localMessageId : Option Nat) (pushLocalId : Nat) (needReceipt : Bool) :
    m.SourcesAgree codec numbered canonical scope nowMs localMessageId
        (m.push pushLocalId needReceipt) ↔
      m.Uniform numbered canonical := by
  have hhistory := semantic_fromHistory hempty henvelope numbered
  have hdifference := semantic_fromDifference hlegacy scope nowMs canonical
    localMessageId
  have hpush := semantic_push hlegacy pushLocalId needReceipt
  constructor
  · intro h
    have hhp := h.history_push
    rw [hhistory, hpush, said_agreesWith_iff] at hhp
    obtain ⟨hchannel, htype, hpts, hsent, hrevoked⟩ := hhp
    have hdp := h.difference_push
    rw [hdifference, hpush, said_agreesWith_iff] at hdp
    obtain ⟨-, hcommit, -, -, -⟩ := hdp
    refine ⟨(wireMessageTypeToI32_wireName m.type).mp htype, ?_, hrevoked, ?_, ?_,
      (normalizeSentAtMs_agree_iff m.sentAt_lt).mp hsent⟩
    · cases canonical with
      | true =>
          exact Or.inl rfl
      | false =>
          rw [if_neg Bool.false_ne_true] at hcommit
          exact Or.inr ((normalizedMessageTypeFromStr_wireName m.type).mp hcommit)
    · cases numbered with
      | true =>
          exact Or.inl rfl
      | false =>
          simp only [Bool.false_eq_true, if_false] at hpts
          exact Or.inr (by omega)
    · intro hzero
      simp [hzero] at hchannel
  · intro h
    have htype := (wireMessageTypeToI32_wireName m.type).mpr h.historyType
    have hcommit : (if canonical then m.type.toI32
        else normalizedMessageTypeFromStr m.type.wireName) = m.type.toI32 := by
      rcases h.commitType with rfl | hcard
      · rfl
      · rw [(normalizedMessageTypeFromStr_wireName m.type).mpr hcard, ite_self]
    have hchannel : (if (m.channelType : Int) = 0 then (1 : Int)
        else m.channelType) = m.channelType := by
      have hne := h.channelType
      rw [if_neg (by omega)]
    have hpts : (if numbered then (m.pts : Int) else 0) = m.pts := by
      rcases h.numbered with rfl | hzero
      · rfl
      · simp [hzero]
    have hsent := (normalizeSentAtMs_agree_iff m.sentAt_lt).mpr h.sentAt
    have hhd : (codec.semantic (m.fromHistory codec numbered)).AgreesWith
        (codec.semantic
          (m.fromDifference codec scope nowMs canonical localMessageId)) := by
      rw [hhistory, hdifference, said_agreesWith_iff, htype, hcommit]
      exact ⟨rfl, rfl, hpts, rfl, h.revoked⟩
    have hhp : (codec.semantic (m.fromHistory codec numbered)).AgreesWith
        (codec.semantic
          (codec.pushCanonical (m.push pushLocalId needReceipt))) := by
      rw [hhistory, hpush, said_agreesWith_iff]
      exact ⟨hchannel, htype, hpts, hsent, h.revoked⟩
    refine ⟨hhd, hhp, ?_, ?_, ?_⟩
    · rw [hdifference, hpush, said_agreesWith_iff]
      exact ⟨hchannel, hcommit, rfl, hsent, rfl⟩
    · obtain ⟨hstoredType, hstoredContent⟩ := messageItemInput_content scope nowMs
        (m.commitItem codec canonical localMessageId)
      exact ⟨hstoredType.trans hhd.messageType.symm,
        hstoredContent.trans hhd.content.symm⟩
    · obtain ⟨hstoredType, hstoredContent⟩ := messageItemInput_content scope nowMs
        (codec.pushMessageToSyncItem (m.push pushLocalId needReceipt))
      obtain ⟨hpushType, hpushContent⟩ := canonicalOfItem_push scope nowMs
        (m.push pushLocalId needReceipt)
      exact ⟨(hstoredType.trans hpushType).trans hhp.messageType.symm,
        (hstoredContent.trans hpushContent).trans hhp.content.symm⟩

theorem sampleTime_lt : 1785148271317 / 1000 < 2 ^ 32 := by
  decide

/-- A message "old" of some type, without metadata. -/
def sampleMessage (type : ContentMessageType) : ServerMessage where
  serverMessageId := 900
  channelId := 10
  channelType := 1
  senderId := 2
  type := type
  content := "old"
  metadata := none
  legacy := .obj [("content", .str "old")]
  pts := 5
  sentAtMs := 1785148271317
  revoked := false
  legacy_object := rfl
  legacy_content := rfl
  legacy_metadata := rfl
  pts_lt := by decide
  sentAt_lt := sampleTime_lt

/-- The text "old" beside metadata, as the server sends it. -/
def envelopedPayload : Json :=
  .obj [("content", .str "old"), ("metadata", .obj [("client", .str "web")])]

/-- JSON texts of which one is that payload. -/
def envelopedCodec : Codec where
  parse text :=
    if text ==
        "\x7b\"content\":\"old\",\"metadata\":\x7b\"client\":\"web\"\x7d\x7d" then
      some envelopedPayload
    else
      none
  print _ := "\x7b\"content\":\"old\",\"metadata\":\x7b\"client\":\"web\"\x7d\x7d"
  scanEntities _ _ := []
  parse_revoked := by decide

/-- The message "old" with that payload. -/
def envelopedMessage : ServerMessage :=
  { sampleMessage .text with
    metadata := some [("client", .str "web")]
    legacy := envelopedPayload
    legacy_object := rfl
    legacy_content := rfl
    legacy_metadata := rfl }

theorem sources_agree_text :
    envelopedMessage.SourcesAgree envelopedCodec true false (some "1:10") 0 none
      (envelopedMessage.push 0 false) := by
  have henvelope : ∀ members, envelopedMessage.metadata = some members →
      envelopedCodec.parse (envelopedCodec.print (.obj
          [("content", .str envelopedMessage.content),
            ("metadata", .obj members)])) =
        some (.obj [("content", .str envelopedMessage.content),
          ("metadata", .obj members)]) := by
    intro members hmembers
    cases hmembers
    rfl
  have huniform : envelopedMessage.Uniform true false :=
    ⟨by decide, by decide, rfl, by decide, by decide, by decide⟩
  exact (sources_agree_iff rfl rfl henvelope true false (some "1:10") 0 none 0
    false).mpr huniform

/--
The history path has no name for a location: its message comes out of a history
page as a text, and of a commit or a push as a location.
-/
theorem location_sources_disagree :
    ¬ (sampleMessage .location).SourcesAgree sampleCodec true false
      (some "1:10") 0 none ((sampleMessage .location).push 0 false) := by
  intro h
  have htype := h.history_push.messageType
  revert htype
  decide

end Agreement

end PrivchatSdk
