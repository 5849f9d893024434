import PrivchatSdk.MessageContent
import PrivchatSdk.ReceivePipeline

/-!
# Sync items and how the sources of a message become one

A push, a commit of a channel difference and an item of an entity page all end in
a `SyncEntityItem`.  This module holds what the source does to a payload on the
way there: the lookups with several keys, the ids in entity ids and scopes, the
two tables of type names, and the message item that a push or a commit becomes.

The wire types keep the fields that are read.  A push payload is given by what its
bytes turn out to be, and a commit by the event that its canonical bytes decode
to, if they do.
-/

namespace PrivchatSdk

open Receive

section Lookups

/-- `json_get_u64`. -/
def jsonGetU64 (value : Json) (keys : List String) : Option Nat :=
  keys.findSome? (fun key =>
    (value.get key).bind (fun v => v.asU64.or (v.asStr.bind parseU64)))

/-- `n as i64` of an unsigned number. -/
def wrapI64 (n : Nat) : Int :=
  (n : Int).bmod (2 ^ 64)

/-- `n as i32`. -/
def wrapI32 (n : Int) : Int :=
  n.bmod (2 ^ 32)

/-- `json_get_i64`. -/
def jsonGetI64 (value : Json) (keys : List String) : Option Int :=
  keys.findSome? (fun key =>
    (value.get key).bind (fun v =>
      (v.asI64.or (v.asU64.map wrapI64)).or (v.asStr.bind parseI64)))

/-- `json_get_i32`. -/
def jsonGetI32 (value : Json) (keys : List String) : Option Int :=
  (jsonGetI64 value keys).map wrapI32

/-- `parse_protocol_channel_type`. -/
def parseProtocolChannelType (value : Json) (keys : List String) : Option Int :=
  match jsonGetI32 value keys with
  | some 0 => some 1
  | some 1 => some 1
  | some 2 => some 2
  | some 3 => some 3
  | _ => none

/-- What a text says about a flag. -/
def boolOfText (s : String) : Option Bool :=
  if s = "1" ∨ s = "true" ∨ s = "TRUE" then some true
  else if s = "0" ∨ s = "false" ∨ s = "FALSE" then some false
  else none

/-- `json_get_bool`. -/
def jsonGetBool (value : Json) (keys : List String) : Option Bool :=
  keys.findSome? (fun key =>
    (value.get key).bind (fun v =>
      match v with
      | .bool b => some b
      | v => (v.asI64.map (fun n => n != 0)).or (v.asStr.bind boolOfText)))

/-- The separators of entity ids and scopes. -/
def isIdSeparator (c : Char) : Bool :=
  c == ':' || c == '/' || c == '|' || c == ','

/-- The numbers between the separators. -/
def idParts (text : String) : List Nat :=
  (text.toList.splitOnP isIdSeparator).filterMap
    (fun token => parseU64 (trim (String.ofList token)))

/-- `parse_entity_id_u64`. -/
def parseEntityIdU64 (entityId : String) : Option Nat :=
  (parseU64 entityId).or (idParts entityId).head?

/-- `parse_channel_scope`: a type and an id. -/
def parseChannelScope (scope : Option String) : Option (Int × Nat) :=
  match scope.map idParts with
  | some (channelType :: channelId :: _) =>
      if channelType < 2 ^ 31 then
        some (if channelType = 0 then 1 else (channelType : Int), channelId)
      else
        none
  | _ => none

end Lookups

section Types

/-- The content types of the protocol. -/
inductive ContentMessageType where
  | text
  | voice
  | image
  | video
  | file
  | system
  | sticker
  | contactCard
  | location
  | link
  | forward
  | redPacket
  | moneyTransfer
  deriving DecidableEq, Repr

namespace ContentMessageType

/-- `as_u32`, as a stored message type. -/
def toI32 : ContentMessageType → Int
  | text => 0
  | voice => 1
  | image => 2
  | video => 3
  | file => 4
  | system => 5
  | sticker => 6
  | contactCard => 7
  | location => 8
  | link => 9
  | forward => 10
  | redPacket => 11
  | moneyTransfer => 12

/-- The name of a type in a history item or a commit. -/
def wireName : ContentMessageType → String
  | text => "text"
  | voice => "voice"
  | image => "image"
  | video => "video"
  | file => "file"
  | system => "system"
  | sticker => "sticker"
  | contactCard => "contact_card"
  | location => "location"
  | link => "link"
  | forward => "forward"
  | redPacket => "red_packet"
  | moneyTransfer => "money_transfer"

end ContentMessageType

/-- The type that `wire_message_type_to_i32` reads off a name. -/
def wireMessageType (t : String) : ContentMessageType :=
  if t = "image" then .image
  else if t = "voice" then .voice
  else if t = "video" then .video
  else if t = "file" ∨ t = "audio" then .file
  else if t = "red_packet" then .redPacket
  else if t = "money_transfer" then .moneyTransfer
  else if t = "system" then .system
  else .text

/-- `wire_message_type_to_i32`, the table of the history paths. -/
def wireMessageTypeToI32 (t : String) : Int :=
  (wireMessageType t).toI32

/-- `to_ascii_lowercase`. -/
def toAsciiLowercase (text : String) : String :=
  String.ofList (text.toList.map Char.toLower)

/-- The type that `normalized_message_type_from_str` reads off a name. -/
def normalizedMessageType (messageType : String) : ContentMessageType :=
  let t := toAsciiLowercase (trim messageType)
  if t = "image" then .image
  else if t = "file" then .file
  else if t = "voice" then .voice
  else if t = "video" then .video
  else if t = "system" then .system
  else if t = "audio" then .file
  else if t = "location" then .location
  else if t = "contact_card" ∨ t = "contactcard" ∨ t = "card" then .contactCard
  else if t = "sticker" then .sticker
  else if t = "forward" then .forward
  else if t = "link" ∨ t = "url" then .link
  else .text

/-- `normalized_message_type_from_str`, the table of the difference path. -/
def normalizedMessageTypeFromStr (messageType : String) : Int :=
  (normalizedMessageType messageType).toI32

end Types

section Payloads

/-- The fields of a message item that are read when it is applied. -/
structure MessageSyncPayload where
  serverMessageId : Option Nat
  messageId : Option Nat
  id : Option Nat
  localMessageId : Option Nat
  channelId : Option Nat
  channelType : Option Int
  typeField : Option Int
  conversationType : Option Int
  timestamp : Option Int
  createdAt : Option Int
  sendTime : Option Int
  fromUid : Option Nat
  senderId : Option Nat
  sender : Option Nat
  uid : Option Nat
  messageType : Option Int
  content : Option String
  text : Option String
  body : Option String
  status : Option Int
  pts : Option Int
  setting : Option Int
  orderSeq : Option Int
  searchableWord : Option String
  extra : Option String
  deriving DecidableEq, Repr

/-- The default of the payload, in which every field is missing. -/
def MessageSyncPayload.default : MessageSyncPayload where
  serverMessageId := none
  messageId := none
  id := none
  localMessageId := none
  channelId := none
  channelType := none
  typeField := none
  conversationType := none
  timestamp := none
  createdAt := none
  sendTime := none
  fromUid := none
  senderId := none
  sender := none
  uid := none
  messageType := none
  content := none
  text := none
  body := none
  status := none
  pts := none
  setting := none
  orderSeq := none
  searchableWord := none
  extra := none

/-- `build_message_sync_item`, without the stream fields that nothing reads. -/
def buildMessageSyncItem
    (serverMessageId localMessageId channelId : Nat) (channelType : Int)
    (timestampMs : Int) (fromUid : Nat) (messageType : Int) (content : String)
    (extra : Option String) (status pts setting orderSeq : Int) :
    SyncEntityItem MessageSyncPayload where
  entityId := toString serverMessageId
  version := pts.toNat
  deleted := false
  payload := some
    { serverMessageId := some serverMessageId
      messageId := some serverMessageId
      id := some serverMessageId
      localMessageId := some localMessageId
      channelId := some channelId
      channelType := some channelType
      typeField := some channelType
      conversationType := some channelType
      timestamp := some timestampMs
      createdAt := some timestampMs
      sendTime := some timestampMs
      fromUid := some fromUid
      senderId := some fromUid
      sender := some fromUid
      uid := some fromUid
      messageType := some messageType
      content := some content
      text := none
      body := none
      status := some status
      pts := some pts
      setting := some setting
      orderSeq := some orderSeq
      searchableWord := none
      extra := extra }

/-- What the bytes of a message payload turn out to be, in the order of the tests. -/
inductive PayloadBytes where
  | empty
  | envelope (legacy : Json)
  | json (value : Json)
  | binary
  | text (text : String)

/-- `payload_bytes_to_message_content_and_extra`. -/
def Codec.payloadBytesToMessageContentAndExtra (codec : Codec) :
    PayloadBytes → String × Option String
  | .empty => ("", none)
  | .envelope legacy => codec.normalizedMessageContentAndExtra legacy
  | .json value => codec.normalizedMessageContentAndExtra value
  | .binary => ("", none)
  | .text text => (text, none)

/-- A message of the realtime connection; `timestamp` counts seconds. -/
structure PushMessageRequest where
  serverMessageId : Nat
  localMessageId : Nat
  channelId : Nat
  channelType : Nat
  fromUid : Nat
  messageType : Nat
  messageSeq : Nat
  timestamp : Nat
  needReceipt : Bool
  deleted : Bool
  payload : PayloadBytes

/-- The event in the canonical bytes of a commit or of a timeline push. -/
inductive CanonicalTimelineEvent where
  | newMessage (messageType : ContentMessageType) (legacy : Json)
  | revoke (targetServerMessageId revokedBy : Nat) (revokedAt : Int)
  | reactionChange (targetServerMessageId actorId : Nat) (emoji : String)
      (remove : Bool)

/-- A commit; `canonicalEvent` is there if its canonical bytes are used. -/
structure ServerCommit where
  eventId : Option Nat
  pts : Nat
  serverMsgId : Nat
  localMessageId : Option Nat
  channelId : Nat
  channelType : Nat
  messageType : String
  content : Json
  serverTimestamp : Int
  senderId : Nat
  canonicalEvent : Option CanonicalTimelineEvent

/-- The payload of an item for a message that exists already, with defaults. -/
def Json.withDefaults (members : List (String × Json)) : Json → Json
  | .obj own =>
      .obj (own ++ members.filter (fun m => !own.any (fun o => o.1 == m.1)))
  | value => value

/-- A sync item under its entity type. -/
inductive SyncItem where
  | message (item : SyncEntityItem MessageSyncPayload)
  | messageExtra (item : SyncEntityItem Json)
  | messageReaction (item : SyncEntityItem Json)

variable (codec : Codec)

/-- `i64::try_from(n).unwrap_or(i64::MAX)`. -/
def clampI64 (n : Nat) : Int :=
  min n (2 ^ 63 - 1)

/-- The message item of a commit. -/
def commitMessageItem
    (commit : ServerCommit) (messageType : Int)
    (contentAndExtra : String × Option String) :
    SyncEntityItem MessageSyncPayload :=
  buildMessageSyncItem commit.serverMsgId (commit.localMessageId.getD 0)
    commit.channelId commit.channelType commit.serverTimestamp commit.senderId
    messageType contentAndExtra.1 contentAndExtra.2 2 (clampI64 commit.pts) 0
    (clampI64 commit.pts)

/-- `sync_item_from_canonical_difference_event`. -/
def Codec.syncItemFromCanonicalDifferenceEvent
    (commit : ServerCommit) : CanonicalTimelineEvent → SyncItem
  | .newMessage messageType legacy =>
      .message (commitMessageItem commit messageType.toI32
        (codec.normalizedMessageContentAndExtra legacy))
  | .revoke target revokedBy revokedAt =>
      .messageExtra
        { entityId := toString commit.serverMsgId
          version := commit.pts
          deleted := false
          payload := some (.obj
            [("message_id", .int target), ("revoke", .bool true),
              ("revoked_by", .int revokedBy), ("revoked_at", .int revokedAt),
              ("channel_id", .int commit.channelId),
              ("channel_type", .int commit.channelType)]) }
  | .reactionChange target actorId emoji remove =>
      .messageReaction
        { entityId := toString target ++ ":" ++ toString actorId ++ ":" ++ emoji
          version := commit.pts
          deleted := false
          payload := some (.obj
            [("message_id", .int target), ("uid", .int actorId),
              ("emoji", .str emoji), ("deleted", .bool remove),
              ("channel_id", .int commit.channelId),
              ("channel_type", .int commit.channelType)]) }

/-- The entity id of a legacy reaction commit. -/
def legacyReactionEntityId (commit : ServerCommit) (payload : Json) : String :=
  let messageId := ((payload.get "message_id").bind Json.asU64).getD
    commit.serverMsgId
  let uid := ((payload.get "uid").bind Json.asU64).getD 0
  let emoji := ((payload.get "emoji").bind Json.asStr).getD ""
  if payload.isObject && decide (0 < uid) && emoji != "" then
    toString messageId ++ ":" ++ toString uid ++ ":" ++ emoji
  else
    toString commit.serverMsgId

/-- `sync_item_from_legacy_difference_commit`. -/
def Codec.syncItemFromLegacyDifferenceCommit
    (commit : ServerCommit) : SyncItem :=
  if commit.messageType ∈ ["message.revoke", "message_extra", "message_ext"] then
    .messageExtra
      { entityId := toString commit.serverMsgId
        version := commit.pts
        deleted := false
        payload := some (commit.content.withDefaults
          [("channel_id", .int commit.channelId),
            ("channel_type", .int commit.channelType),
            ("message_id", .int commit.serverMsgId)]) }
  else if commit.messageType ∈
      ["message_reaction", "reaction", "message.reaction"] then
    let payload := commit.content.withDefaults
      [("channel_id", .int commit.channelId),
        ("channel_type", .int commit.channelType)]
    .messageReaction
      { entityId := legacyReactionEntityId commit payload
        version := commit.pts
        deleted := false
        payload := some payload }
  else
    .message (commitMessageItem commit
      (normalizedMessageTypeFromStr commit.messageType)
      (codec.normalizedMessageContentAndExtra commit.content))

/-- `sync_item_from_difference_commit`. -/
def Codec.syncItemFromDifferenceCommit (commit : ServerCommit) : SyncItem :=
  match commit.canonicalEvent with
  | some event => codec.syncItemFromCanonicalDifferenceEvent commit event
  | none => codec.syncItemFromLegacyDifferenceCommit commit

end Payloads

end PrivchatSdk
