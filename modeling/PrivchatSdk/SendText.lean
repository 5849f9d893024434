import PrivchatSdk.SyncPayload

/-!
# A text on its way to the other side

A text message is sent from its row: `buildSendMessageRequestWithContent` makes an
envelope of the content and the extra, the receiver takes content and extra out of
it (`payloadBytesToMessageContentAndExtra`), and both sides show what
`projectStoredMessage` reads off their rows.  Each of these steps looks at the shape
of the text.

`text_delivered_iff_survives` says when the text, its reply and its mentions come
through all of them.  Reading and writing envelopes and their wire format belong to
the protocol crate and are a parameter.
-/

namespace PrivchatSdk

section Request

/-- The envelope that a message travels in. -/
structure LocalMessagePayloadEnvelope where
  content : String
  metadata : Option Json
  replyToMessageId : Option String
  mentionedUserIds : Option (List Nat)
  messageSource : Option Json

structure MessageSetting where
  needReceipt : Bool
  signal : Nat
  deriving DecidableEq, Repr

structure SendMessageRequest (β : Type) where
  setting : MessageSetting
  clientSeq : Nat
  localMessageId : Nat
  streamNo : String
  channelId : Nat
  messageType : Nat
  expire : Nat
  fromUid : Nat
  topic : String
  payload : β

/--
The protocol crate: an envelope from and to a JSON value, its bytes for a type of
message (`from_legacy` and `encode_message`), and what bytes turn out to be
(`decode_message` and `to_legacy`).
-/
structure EnvelopeCrate (β : Type) where
  fromValue : Json → Option LocalMessagePayloadEnvelope
  toValue : LocalMessagePayloadEnvelope → Json
  encode : Nat → LocalMessagePayloadEnvelope → Except String β
  payloadBytes : β → PayloadBytes

variable {β : Type} (codec : Codec) (crate : EnvelopeCrate β)

/-- The envelope that the extra of a row is. -/
def EnvelopeCrate.extraEnvelope (extra : String) :
    Option LocalMessagePayloadEnvelope :=
  (codec.decodeLegacyMessageEnvelope extra).bind crate.fromValue

/-- `attachment_caption`. -/
def Codec.attachmentCaption (extra : String) : Option String :=
  (((codec.parse extra).bind (fun v => v.get "caption")).bind Json.asStr).filter
    (fun s => s != "")

/-- The content reads as the metadata of an uploaded file. -/
def Codec.isAttachmentContent (content : String) : Bool :=
  match codec.parse content with
  | some v => ((v.get "file_id").or (v.get "thumbnail_file_id")).isSome
  | none => false

/-- The envelope of `build_send_message_request_with_content`. -/
def EnvelopeCrate.requestEnvelope (message : StoredMessage) (content : String) :
    LocalMessagePayloadEnvelope :=
  let envelope := (crate.extraEnvelope codec message.extra).getD
    { content := content
      metadata := (codec.parse message.extra).filter (fun v => !v.isNull)
      replyToMessageId := none
      mentionedUserIds := none
      messageSource := none }
  match codec.decodeLegacyMessageEnvelope content with
  | some contentJson => (crate.fromValue contentJson).getD envelope
  | none =>
      if codec.isAttachmentContent content then
        { envelope with
          content := (codec.attachmentCaption message.extra).getD ""
          metadata := codec.parse content }
      else
        envelope

/-- The request around a payload. -/
def sendMessageRequest
    (message : StoredMessage) (localMessageId : Nat) (payload : β) :
    SendMessageRequest β where
  setting := { needReceipt := true, signal := 0 }
  clientSeq := 1
  localMessageId := localMessageId
  streamNo := "stream_" ++ toString localMessageId
  channelId := message.channelId
  messageType := message.messageType.toNat
  expire := 3600
  fromUid := message.fromUid
  topic := "chat"
  payload := payload

/-- `build_send_message_request_with_content`. -/
def EnvelopeCrate.buildSendMessageRequestWithContent
    (message : StoredMessage) (localMessageId : Nat) (content : String) :
    Except String (SendMessageRequest β) :=
  if message.messageType < 0 then
    .error ("invalid message_type: " ++ toString message.messageType)
  else
    match crate.encode message.messageType.toNat
        (crate.requestEnvelope codec message content) with
    | .error e => .error ("encode send payload: " ++ e)
    | .ok payload => .ok (sendMessageRequest message localMessageId payload)

end Request

section Laws

variable {β : Type}

/-- What JSON texts look like: white space may stand around a value. -/
structure Codec.JsonTexts (codec : Codec) : Prop where
  parse_empty : codec.parse "" = none
  parse_trim : ∀ text v, codec.parse text = some v →
    codec.parse (trim text) = some v
  brace : ∀ text members, codec.parse text = some (.obj members) →
    (trim text).toList.head? = some '{'

/-- The ids in the list of mentions of a value. -/
def mentionList (v : Json) : List Nat :=
  (v.asArray.getD []).filterMap (fun v => v.asU64.or (v.asStr.bind parseU64))

/-- An envelope is read field by field, under the names of the fields. -/
structure EnvelopeCrate.ReadsFields (crate : EnvelopeCrate β) : Prop where
  content : ∀ v e, crate.fromValue v = some e →
    v.get "content" = some (.str e.content)
  reply : ∀ v e, crate.fromValue v = some e →
    (v.get "reply_to_message_id").bind valueString = e.replyToMessageId
  mentions : ∀ v e, crate.fromValue v = some e →
    ((v.get "mentioned_user_ids").map mentionList).getD [] =
      e.mentionedUserIds.getD []
  metadata : ∀ v e, crate.fromValue v = some e →
    (v.get "metadata").filter (fun v => !v.isNull) = e.metadata

/-- The envelope comes out of its bytes, its JSON value and its JSON text again. -/
structure EnvelopeCrate.RoundTrips
    (codec : Codec) (crate : EnvelopeCrate β) (messageType : Nat)
    (e : LocalMessagePayloadEnvelope) : Prop where
  received : ∃ b, crate.encode messageType e = .ok b ∧
    crate.payloadBytes b = .envelope (crate.toValue e)
  decoded : crate.fromValue (crate.toValue e) = some e
  parsed : codec.parse (codec.print (crate.toValue e)) = some (crate.toValue e)

end Laws

section Delivery

variable {β : Type} (codec : Codec) (crate : EnvelopeCrate β)

/-- The extra is empty, or an envelope with this reply and these mentions. -/
def EnvelopeCrate.Carries
    (extra : String) (reply : Option String) (mentions : List Nat) : Prop :=
  (extra = "" ∧ reply = none ∧ mentions = []) ∨
    ∃ v e, codec.parse extra = some v ∧
      codec.decodeLegacyMessageEnvelope extra = some v ∧
      crate.fromValue v = some e ∧ e.replyToMessageId = reply ∧
      e.mentionedUserIds.getD [] = mentions

/-- The projection shows the text with the reply and the mentions. -/
def MessageContentProjection.Shows
    (p : MessageContentProjection) (text : String) (reply : Option String)
    (mentions : List Nat) : Prop :=
  p.text = text ∧ p.replyToMessageId = reply ∧ p.mentionedUserIds = mentions

/-- The row of the receiver: content and extra come from the payload. -/
def Codec.receivedRow (m : StoredMessage) (payload : PayloadBytes) :
    StoredMessage :=
  let received := codec.payloadBytesToMessageContentAndExtra payload
  { m with content := received.1, extra := received.2.getD "" }

/--
The request carries the text of the row with the reply and the mentions, the
receiver takes the text out, and both sides show all three.
-/
structure EnvelopeCrate.Delivers
    (m : StoredMessage) (localMessageId : Nat) (reply : Option String)
    (mentions : List Nat) (req : SendMessageRequest β) : Prop where
  built : crate.buildSendMessageRequestWithContent codec m localMessageId
    m.content = .ok req
  carried : ∃ v e, crate.payloadBytes req.payload = .envelope v ∧
    crate.fromValue v = some e ∧ e.content = m.content ∧
    e.replyToMessageId = reply ∧ e.mentionedUserIds.getD [] = mentions
  received : (codec.payloadBytesToMessageContentAndExtra
    (crate.payloadBytes req.payload)).1 = m.content
  sender : (codec.projectStoredMessage m).Shows m.content reply mentions
  receiver : (codec.projectStoredMessage
    (codec.receivedRow m (crate.payloadBytes req.payload))).Shows m.content reply
      mentions

/--
Neither the text, read as a JSON object, nor the metadata has a member that is
looked up before the envelope and says something else.
-/
structure Codec.Unopposed
    (t : String) (metadata : Option Json) (reply : Option String)
    (mentions : List Nat) : Prop where
  text : ∀ v, findIn [codec.parseObject t, metadata] ["content", "text"] =
    some v → ∀ s, valueString v = some s → s = t
  reply : ∀ v, findIn [codec.parseObject t, metadata]
    ["reply_to_message_id"] = some v → valueString v = reply
  mentions : ∀ v, findIn [codec.parseObject t, metadata]
    ["mentioned_user_ids"] = some v → mentionList v = mentions

/-- The metadata of the envelope that the extra is. -/
def EnvelopeCrate.extraMetadata (extra : String) : Option Json :=
  (crate.extraEnvelope codec extra).bind (fun e => e.metadata)

/--
When a text comes through: nothing opposes it, and an envelope in the extra holds
the same text.  A text that reads as the metadata of a file is replaced by the
caption, so the caption must be the text.
-/
structure EnvelopeCrate.Survives
    (t extra : String) (reply : Option String) (mentions : List Nat) :
    Prop where
  unopposed : codec.Unopposed t (crate.extraMetadata codec extra) reply mentions
  caption : codec.isAttachmentContent t = true →
    codec.attachmentCaption extra = some t
  envelope : (codec.isAttachmentContent t = false ∨
      findIn [codec.parseObject t, crate.extraMetadata codec extra]
        ["content", "text"] = none) →
    ∀ e, crate.extraEnvelope codec extra = some e → e.content = t

end Delivery

section Projection

variable {codec : Codec}

/-- A text that is no marked envelope is not taken apart. -/
theorem decodeEnvelope_plain
    (htexts : codec.JsonTexts) {t : String}
    (ht : codec.decodeLegacyMessageEnvelope t = none) :
    codec.decodeEnvelope t = .plain t := by
  unfold Codec.decodeEnvelope
  cases hobject : codec.parseObject t with
  | none => rfl
  | some v =>
      dsimp only
      obtain ⟨hparse, hisobject⟩ := Option.filter_eq_some_iff.mp hobject
      by_cases hmarked : envelopeMarkers.any (fun k => v.containsKey k) = true
      · rw [if_pos hmarked]
        cases hcontent : (v.get "content").bind Json.asStr with
        | none => rfl
        | some text =>
            exfalso
            obtain ⟨members, rfl⟩ : ∃ members, v = .obj members := by
              cases v with
              | obj members => exact ⟨members, rfl⟩
              | _ => cases hisobject
            have hbrace := htexts.brace t members hparse
            obtain ⟨rest, hrest⟩ : ∃ rest, (trim t).toList = '{' :: rest := by
              cases hlist : (trim t).toList with
              | nil =>
                  rw [hlist] at hbrace
                  cases hbrace
              | cons c rest =>
                  rw [hlist] at hbrace
                  cases hbrace
                  exact ⟨rest, rfl⟩
            have hlegacy : codec.decodeLegacyMessageEnvelope t =
                some (.obj members) := by
              simp only [Codec.decodeLegacyMessageEnvelope, hrest,
                Codec.parseObject, htexts.parse_trim t _ hparse]
              simp [Option.filter, Json.isObject, hcontent, hmarked]
            rw [hlegacy] at ht
            cases ht
      · rw [if_neg hmarked]

theorem findIn_append_one
    (a b c : Option Json) (keys : List String) :
    findIn [a, b, c] keys = (findIn [a, b] keys).or (findIn [c] keys) := by
  rw [findIn_cons, findIn_cons b, findIn_cons a [b], Option.or_assoc]

/-- A null in place of the metadata is as good as none. -/
theorem findIn_filter_null
    (a b : Option Json) (keys : List String) :
    findIn [a, b.filter (fun v => !v.isNull)] keys = findIn [a, b] keys := by
  rw [findIn_cons a, findIn_cons a [b]]
  congr 1
  cases b with
  | none => rfl
  | some v =>
      cases v with
      | null =>
          have hnone : keys.findSome? (fun k => Json.null.get k) = none :=
            List.findSome?_eq_none_iff.mpr (fun _ _ => rfl)
          simp [findIn, Option.filter, Json.isNull, hnone]
      | _ => rfl

theorem u64ListAt_eq
    (sources : List (Option Json)) (key : String) :
    u64ListAt sources key =
      ((findIn sources [key]).map mentionList).getD [] := by
  unfold u64ListAt
  cases findIn sources [key] <;> rfl

/--
What a text message shows: what its text and metadata say, else what the object `c`
of the extra says.
-/
theorem shows_iff
    {m : StoredMessage} (htype : m.messageType = 0)
    (hplain : codec.decodeEnvelope m.content = .plain m.content)
    {metadata c : Option Json} {said : String} {reply : Option String}
    {mentions : List Nat}
    (hsources : codec.sources m.content m.extra =
      [codec.parseObject m.content, metadata, c])
    (htext : (stringAt [c] ["content", "text"]).getD m.content = said)
    (hreply : stringAt [c] ["reply_to_message_id"] = reply)
    (hmentions : u64ListAt [c] "mentioned_user_ids" = mentions) :
    (codec.projectStoredMessage m).Shows m.content reply mentions ↔
      codec.Unopposed m.content metadata reply mentions ∧
        (findIn [codec.parseObject m.content, metadata] ["content", "text"] =
          none → said = m.content) := by
  have htextEq : (codec.projectStoredMessage m).text = m.content ↔
      (∀ v, findIn [codec.parseObject m.content, metadata]
          ["content", "text"] = some v →
        ∀ s, valueString v = some s → s = m.content) ∧
        (findIn [codec.parseObject m.content, metadata] ["content", "text"] =
          none → said = m.content) := by
    rw [projectStoredMessage_text htype, hsources, stringAt,
      findIn_append_one, Codec.text, hplain]
    cases hfound : findIn [codec.parseObject m.content, metadata]
        ["content", "text"] with
    | none => simp [stringAt, Envelope.plain, ← htext]
    | some v =>
        cases hstring : valueString v with
        | none => simp [Envelope.plain, hstring]
        | some s => simp [hstring]
  have hreplyEq : (codec.projectStoredMessage m).replyToMessageId = reply ↔
      ∀ v, findIn [codec.parseObject m.content, metadata]
          ["reply_to_message_id"] = some v → valueString v = reply := by
    have hshown : (codec.projectStoredMessage m).replyToMessageId =
        stringAt [codec.parseObject m.content, metadata, c]
          ["reply_to_message_id"] := by
      simp [Codec.projectStoredMessage, htype, Codec.showText,
        Codec.commonFields, hplain, Envelope.plain, hsources]
    rw [hshown, stringAt, findIn_append_one]
    cases findIn [codec.parseObject m.content, metadata]
        ["reply_to_message_id"] with
    | none => simpa [stringAt] using hreply
    | some v => simp
  have hmentionsEq : (codec.projectStoredMessage m).mentionedUserIds = mentions ↔
      ∀ v, findIn [codec.parseObject m.content, metadata]
          ["mentioned_user_ids"] = some v → mentionList v = mentions := by
    have hshown : (codec.projectStoredMessage m).mentionedUserIds =
        u64ListAt [codec.parseObject m.content, metadata, c]
          "mentioned_user_ids" := by
      simp [Codec.projectStoredMessage, htype, Codec.showText,
        Codec.commonFields, hplain, Envelope.plain, hsources]
    rw [hshown, u64ListAt_eq, findIn_append_one]
    rw [u64ListAt_eq] at hmentions
    cases findIn [codec.parseObject m.content, metadata]
        ["mentioned_user_ids"] with
    | none => simpa using hmentions
    | some v => simp
  unfold MessageContentProjection.Shows
  rw [htextEq, hreplyEq, hmentionsEq]
  constructor
  · rintro ⟨⟨htext, hsaid⟩, hreply, hmentions⟩
    exact ⟨⟨htext, hreply, hmentions⟩, hsaid⟩
  · rintro ⟨⟨htext, hreply, hmentions⟩, hsaid⟩
    exact ⟨⟨htext, hsaid⟩, hreply, hmentions⟩

theorem unopposed_filter_null
    (t : String) (b : Option Json) (reply : Option String) (mentions : List Nat) :
    codec.Unopposed t (b.filter (fun v => !v.isNull)) reply mentions ↔
      codec.Unopposed t b reply mentions := by
  constructor
  · rintro ⟨h₁, h₂, h₃⟩
    simp only [findIn_filter_null] at h₁ h₂ h₃
    exact ⟨h₁, h₂, h₃⟩
  · rintro ⟨h₁, h₂, h₃⟩
    refine ⟨?_, ?_, ?_⟩
    · simpa only [findIn_filter_null] using h₁
    · simpa only [findIn_filter_null] using h₂
    · simpa only [findIn_filter_null] using h₃

/-- What the text says itself does not depend on the metadata. -/
theorem Codec.Unopposed.own
    {t : String} {b : Option Json} {reply : Option String} {mentions : List Nat}
    (h : codec.Unopposed t b reply mentions) :
    codec.Unopposed t (codec.parseObject t) reply mentions := by
  have hfind : ∀ keys v, findIn [codec.parseObject t, codec.parseObject t] keys =
      some v → findIn [codec.parseObject t, b] keys = some v := by
    intro keys v hv
    rw [findIn_cons, Option.or_self] at hv
    rw [findIn_cons, hv, Option.some_or]
  exact ⟨fun v hv => h.text v (hfind _ v hv), fun v hv => h.reply v (hfind _ v hv),
    fun v hv => h.mentions v (hfind _ v hv)⟩

end Projection

section Envelopes

variable {β : Type} {codec : Codec} {crate : EnvelopeCrate β}
variable {t extra : String} {reply : Option String} {mentions : List Nat}

/-- The envelope that a row starts from: that of its extra, or a new one. -/
def EnvelopeCrate.startEnvelope
    (codec : Codec) (crate : EnvelopeCrate β) (t extra : String) :
    LocalMessagePayloadEnvelope :=
  (crate.extraEnvelope codec extra).getD
    { content := t
      metadata := (codec.parse extra).filter (fun v => !v.isNull)
      replyToMessageId := none
      mentionedUserIds := none
      messageSource := none }

theorem startEnvelope_content_iff :
    (crate.startEnvelope codec t extra).content = t ↔
      ∀ e, crate.extraEnvelope codec extra = some e → e.content = t := by
  unfold EnvelopeCrate.startEnvelope
  cases crate.extraEnvelope codec extra <;> simp

/-- The extra adds to the lookups what its envelope says. -/
structure EnvelopeCrate.SaysEnvelope
    (codec : Codec) (crate : EnvelopeCrate β) (t extra : String)
    (reply : Option String) (mentions : List Nat) (metadata c : Option Json) :
    Prop where
  sources : codec.decodeEnvelope t = .plain t →
    codec.sources t extra = [codec.parseObject t, metadata, c]
  showsMetadata : metadata.filter (fun v => !v.isNull) =
    crate.extraMetadata codec extra
  showsText : (stringAt [c] ["content", "text"]).getD t =
    (crate.startEnvelope codec t extra).content
  showsReply : stringAt [c] ["reply_to_message_id"] = reply
  showsMentions : u64ListAt [c] "mentioned_user_ids" = mentions
  startReply : (crate.startEnvelope codec t extra).replyToMessageId = reply
  startMentions :
    (crate.startEnvelope codec t extra).mentionedUserIds.getD [] = mentions
  startMetadata : (crate.startEnvelope codec t extra).metadata =
    crate.extraMetadata codec extra

/-- What the members of an envelope's value say. -/
theorem EnvelopeCrate.ReadsFields.lookups
    (hreads : crate.ReadsFields) {v : Json} {e : LocalMessagePayloadEnvelope}
    (hvalue : crate.fromValue v = some e) :
    stringAt [some v] ["content", "text"] = some e.content ∧
      stringAt [some v] ["reply_to_message_id"] = e.replyToMessageId ∧
      u64ListAt [some v] "mentioned_user_ids" = e.mentionedUserIds.getD [] := by
  refine ⟨?_, ?_, ?_⟩
  · simp [stringAt, findIn, hreads.content v e hvalue, valueString, Json.asStr]
  · rw [← hreads.reply v e hvalue]
    simp [stringAt, findIn]
  · rw [← hreads.mentions v e hvalue, u64ListAt_eq]
    simp [findIn]

theorem extraEnvelope_empty : crate.extraEnvelope codec "" = none := by
  simp [EnvelopeCrate.extraEnvelope, Codec.decodeLegacyMessageEnvelope, trim]

theorem EnvelopeCrate.Carries.saysEnvelope
    (htexts : codec.JsonTexts) (hreads : crate.ReadsFields)
    (h : crate.Carries codec extra reply mentions) (t : String) :
    ∃ metadata c,
      crate.SaysEnvelope codec t extra reply mentions metadata c := by
  obtain ⟨rfl, rfl, rfl⟩ | ⟨v, e, hparse, hlegacy, hvalue, rfl, rfl⟩ := h
  · have hnone : crate.extraEnvelope codec "" = none := extraEnvelope_empty
    have hobject : codec.parseObject "" = none := by
      simp [Codec.parseObject, htexts.parse_empty]
    refine ⟨none, none, ?_, ?_, ?_, rfl, rfl, ?_, ?_, ?_⟩
    · intro hplain
      simp [Codec.sources, hplain, Envelope.plain, hobject]
    · simp [EnvelopeCrate.extraMetadata, hnone]
    · simp [EnvelopeCrate.startEnvelope, hnone, stringAt, findIn]
    · simp [EnvelopeCrate.startEnvelope, hnone]
    · simp [EnvelopeCrate.startEnvelope, hnone]
    · simp [EnvelopeCrate.startEnvelope, EnvelopeCrate.extraMetadata, hnone,
        htexts.parse_empty]
  · have hsome : crate.extraEnvelope codec extra = some e := by
      simp [EnvelopeCrate.extraEnvelope, hlegacy, hvalue]
    obtain ⟨hcontent, hreply, hmentions⟩ := hreads.lookups hvalue
    have hobject : codec.parseObject extra = some v := by
      have hmember := hreads.content v e hvalue
      cases v with
      | obj members => simp [Codec.parseObject, hparse, Option.filter,
          Json.isObject]
      | _ => cases hmember
    refine ⟨v.get "metadata", some v, ?_, ?_, ?_, hreply, hmentions, ?_, ?_, ?_⟩
    · intro hplain
      simp [Codec.sources, hplain, Envelope.plain, hobject]
    · simp [EnvelopeCrate.extraMetadata, hsome, hreads.metadata v e hvalue]
    · simp [EnvelopeCrate.startEnvelope, hsome, hcontent]
    · simp [EnvelopeCrate.startEnvelope, hsome]
    · simp [EnvelopeCrate.startEnvelope, hsome]
    · simp [EnvelopeCrate.startEnvelope, EnvelopeCrate.extraMetadata, hsome]

/-- The request starts from the envelope of the row. -/
theorem requestEnvelope_eq
    {m : StoredMessage}
    (ht : codec.decodeLegacyMessageEnvelope m.content = none) :
    crate.requestEnvelope codec m m.content =
      if codec.isAttachmentContent m.content then
        { crate.startEnvelope codec m.content m.extra with
          content := (codec.attachmentCaption m.extra).getD ""
          metadata := codec.parse m.content }
      else
        crate.startEnvelope codec m.content m.extra := by
  simp only [EnvelopeCrate.requestEnvelope, ht]
  rfl

/-- A content that reads as file metadata is an object. -/
theorem parseObject_of_isAttachmentContent
    (h : codec.isAttachmentContent t = true) :
    ∃ v, codec.parse t = some v ∧ codec.parseObject t = some v := by
  unfold Codec.isAttachmentContent at h
  cases hparse : codec.parse t with
  | none =>
      rw [hparse] at h
      cases h
  | some v =>
      refine ⟨v, rfl, ?_⟩
      rw [hparse] at h
      cases v with
      | obj members => simp [Codec.parseObject, hparse, Option.filter,
          Json.isObject]
      | _ => cases h

/-- The request carries the text if the caption or the row's envelope does. -/
theorem requestEnvelope_content_iff
    (htexts : codec.JsonTexts) {m : StoredMessage}
    (ht : codec.decodeLegacyMessageEnvelope m.content = none) :
    (crate.requestEnvelope codec m m.content).content = m.content ↔
      (codec.isAttachmentContent m.content = true →
        codec.attachmentCaption m.extra = some m.content) ∧
      (codec.isAttachmentContent m.content = false →
        ∀ e, crate.extraEnvelope codec m.extra = some e →
          e.content = m.content) := by
  rw [requestEnvelope_eq ht]
  cases hattachment : codec.isAttachmentContent m.content with
  | false =>
      rw [if_neg Bool.false_ne_true, startEnvelope_content_iff]
      simp
  | true =>
      obtain ⟨v, hparse, -⟩ := parseObject_of_isAttachmentContent hattachment
      have hne : m.content ≠ "" := by
        intro hempty
        rw [hempty, htexts.parse_empty] at hparse
        cases hparse
      rw [if_pos rfl]
      cases codec.attachmentCaption m.extra with
      | none => simpa using hne.symm
      | some caption => simp

end Envelopes

section Main

variable {β : Type} {codec : Codec} {crate : EnvelopeCrate β}
variable {m : StoredMessage} {reply : Option String} {mentions : List Nat}

/-- The receiver takes content and extra from the envelope's value. -/
theorem receivedContent
    (hreads : crate.ReadsFields) {v : Json} {e : LocalMessagePayloadEnvelope}
    (hvalue : crate.fromValue v = some e) :
    codec.payloadBytesToMessageContentAndExtra (.envelope v) =
      (e.content, some (codec.print v)) := by
  have hcontent := hreads.content v e hvalue
  cases v with
  | obj members =>
      simp [Codec.payloadBytesToMessageContentAndExtra,
        Codec.normalizedMessageContentAndExtra, Codec.normalizedObject,
        Codec.jsonGetString, hcontent, Json.asStr]
  | _ => cases hcontent

/-- The receiver shows what the envelope of the request holds. -/
theorem receiver_shows_iff
    (htexts : codec.JsonTexts) (hreads : crate.ReadsFields)
    {e : LocalMessagePayloadEnvelope} {messageType : Nat}
    (hround : crate.RoundTrips codec messageType e)
    (htype : m.messageType = 0)
    (ht : codec.decodeLegacyMessageEnvelope e.content = none) :
    (codec.projectStoredMessage
        (codec.receivedRow m (.envelope (crate.toValue e)))).Shows e.content
        e.replyToMessageId (e.mentionedUserIds.getD []) ↔
      codec.Unopposed e.content e.metadata e.replyToMessageId
        (e.mentionedUserIds.getD []) := by
  have hrow : codec.receivedRow m (.envelope (crate.toValue e)) =
      { m with
        content := e.content
        extra := codec.print (crate.toValue e) } := by
    simp [Codec.receivedRow, receivedContent hreads hround.decoded]
  obtain ⟨hcontent, hreply, hmentions⟩ := hreads.lookups hround.decoded
  have hplain := decodeEnvelope_plain htexts ht
  have hobject : codec.parseObject (codec.print (crate.toValue e)) =
      some (crate.toValue e) := by
    have hmember := hreads.content _ e hround.decoded
    rw [Codec.parseObject, hround.parsed]
    cases htoValue : crate.toValue e with
    | obj members => rfl
    | _ =>
        rw [htoValue] at hmember
        cases hmember
  have hsources : codec.sources e.content (codec.print (crate.toValue e)) =
      [codec.parseObject e.content, (crate.toValue e).get "metadata",
        some (crate.toValue e)] := by
    simp [Codec.sources, hplain, Envelope.plain, hobject]
  have hsaid : (stringAt [some (crate.toValue e)] ["content", "text"]).getD
      e.content = e.content := by
    rw [hcontent]
    rfl
  have hshows := shows_iff (m := { m with
      content := e.content
      extra := codec.print (crate.toValue e) }) htype hplain hsources hsaid hreply
    hmentions
  rw [hrow, ← hreads.metadata _ e hround.decoded, unopposed_filter_null]
  exact hshows.trans (by simp)

/-- The sender shows what the envelope of the row holds. -/
theorem sender_shows_iff
    (htexts : codec.JsonTexts) (hreads : crate.ReadsFields)
    (htype : m.messageType = 0)
    (ht : codec.decodeLegacyMessageEnvelope m.content = none)
    (hextra : crate.Carries codec m.extra reply mentions) :
    (codec.projectStoredMessage m).Shows m.content reply mentions ↔
      codec.Unopposed m.content (crate.extraMetadata codec m.extra) reply
          mentions ∧
        (findIn [codec.parseObject m.content, crate.extraMetadata codec m.extra]
            ["content", "text"] = none →
          ∀ e, crate.extraEnvelope codec m.extra = some e →
            e.content = m.content) := by
  have hplain := decodeEnvelope_plain htexts ht
  obtain ⟨metadata, c, hcarry⟩ := hextra.saysEnvelope htexts hreads m.content
  rw [← startEnvelope_content_iff, ← hcarry.showsMetadata, unopposed_filter_null,
    findIn_filter_null]
  exact shows_iff htype hplain (hcarry.sources hplain) hcarry.showsText
    hcarry.showsReply hcarry.showsMentions

/-- The request of a text message, around the bytes of its envelope. -/
theorem built_iff
    (htype : m.messageType = 0)
    (hround : crate.RoundTrips codec 0 (crate.requestEnvelope codec m m.content))
    (localMessageId : Nat) :
    ∃ b, crate.payloadBytes b =
        .envelope (crate.toValue (crate.requestEnvelope codec m m.content)) ∧
      ∀ req, crate.buildSendMessageRequestWithContent codec m localMessageId
          m.content = .ok req ↔
        req = sendMessageRequest m localMessageId b := by
  obtain ⟨b, hencode, hbytes⟩ := hround.received
  refine ⟨b, hbytes, fun req => ?_⟩
  unfold EnvelopeCrate.buildSendMessageRequestWithContent
  rw [htype, if_neg (by decide), Int.toNat_zero, hencode]
  simp only [Except.ok.injEq]
  exact eq_comm

/-- Reply, mentions and metadata of the request's envelope. -/
theorem requestEnvelope_rest
    (htexts : codec.JsonTexts) (hreads : crate.ReadsFields)
    (ht : codec.decodeLegacyMessageEnvelope m.content = none)
    (hextra : crate.Carries codec m.extra reply mentions) :
    (crate.requestEnvelope codec m m.content).replyToMessageId = reply ∧
      (crate.requestEnvelope codec m m.content).mentionedUserIds.getD [] =
        mentions ∧
      (crate.requestEnvelope codec m m.content).metadata =
        if codec.isAttachmentContent m.content then codec.parseObject m.content
        else crate.extraMetadata codec m.extra := by
  obtain ⟨metadata, c, hcarry⟩ := hextra.saysEnvelope htexts hreads m.content
  rw [requestEnvelope_eq ht]
  cases hattachment : codec.isAttachmentContent m.content with
  | false =>
      rw [if_neg Bool.false_ne_true, if_neg Bool.false_ne_true]
      exact ⟨hcarry.startReply, hcarry.startMentions, hcarry.startMetadata⟩
  | true =>
      obtain ⟨v, hparse, hobject⟩ := parseObject_of_isAttachmentContent hattachment
      rw [if_pos rfl, if_pos rfl]
      exact ⟨hcarry.startReply, hcarry.startMentions, hparse.trans hobject.symm⟩

/--
A text that is no envelope reaches the other side, with its reply and mentions, and
is shown by both, exactly if it survives.
-/
theorem text_delivered_iff_survives
    (htexts : codec.JsonTexts) (hreads : crate.ReadsFields)
    (htype : m.messageType = 0)
    (ht : codec.decodeLegacyMessageEnvelope m.content = none)
    (hextra : crate.Carries codec m.extra reply mentions)
    (hround : crate.RoundTrips codec 0 (crate.requestEnvelope codec m m.content))
    (localMessageId : Nat) :
    (∃ req, crate.Delivers codec m localMessageId reply mentions req) ↔
      crate.Survives codec m.content m.extra reply mentions := by
  obtain ⟨b, hbytes, hbuilt⟩ := built_iff htype hround localMessageId
  obtain ⟨hreply, hmentions, hmetadata⟩ :=
    requestEnvelope_rest htexts hreads ht hextra
  have hreceived := @receivedContent _ codec _ hreads _ _ hround.decoded
  have hcontent := @requestEnvelope_content_iff _ codec crate htexts _ ht
  have hsender := sender_shows_iff htexts hreads htype ht hextra
  constructor
  · rintro ⟨req, h⟩
    obtain rfl := (hbuilt req).mp h.built
    have hsame := h.received
    dsimp only [sendMessageRequest] at hsame
    rw [hbytes, hreceived] at hsame
    obtain ⟨hcaption, henvelope⟩ := hcontent.mp hsame
    obtain ⟨hunopposed, hsaid⟩ := hsender.mp h.sender
    refine ⟨hunopposed, hcaption, ?_⟩
    rintro (hplain | hnone)
    · exact henvelope hplain
    · exact hsaid hnone
  · intro h
    have hsame := hcontent.mpr ⟨h.caption, fun hplain => h.envelope (Or.inl hplain)⟩
    refine ⟨_, (hbuilt _).mpr rfl, ?_, ?_, ?_, ?_⟩
    · exact ⟨_, _, hbytes, hround.decoded, hsame, hreply, hmentions⟩
    · dsimp only [sendMessageRequest]
      rw [hbytes, hreceived]
      exact hsame
    · exact hsender.mpr ⟨h.unopposed, fun hnone => h.envelope (Or.inr hnone)⟩
    · have hreceiver := receiver_shows_iff htexts hreads hround htype
        (by rw [hsame]; exact ht)
      rw [hsame, hreply, hmentions, hmetadata] at hreceiver
      dsimp only [sendMessageRequest]
      rw [hbytes]
      refine hreceiver.mpr ?_
      cases codec.isAttachmentContent m.content with
      | false => exact h.unopposed
      | true => exact h.unopposed.own

end Main

section Sample

/-- An object that a user typed. -/
def typedObject : String :=
  "\x7b\"content\":\"old\"\x7d"

/-- The envelope around it, as JSON text. -/
def typedObjectEnvelope : String :=
  "\x7b\"content\":\"\x7b\\\"content\\\":\\\"old\\\"\x7d\"\x7d"

/-- JSON texts of which two are read. -/
def typedCodec : Codec where
  parse text :=
    if text = typedObject then
      some (.obj [("content", .str "old")])
    else if text = typedObjectEnvelope then
      some (.obj [("content", .str typedObject)])
    else
      none
  print v :=
    if (v.get "content").bind Json.asStr = some "old" then typedObject
    else typedObjectEnvelope
  scanEntities _ _ := []
  parse_revoked := by decide

/-- Envelopes that mention nobody; their bytes are their values. -/
def typedCrate : EnvelopeCrate Json where
  fromValue v :=
    match v.get "content", v.get "reply_to_message_id",
        v.get "mentioned_user_ids" with
    | some (.str content), none, none => some
        { content := content
          metadata := (v.get "metadata").filter (fun v => !v.isNull)
          replyToMessageId := none
          mentionedUserIds := none
          messageSource := none }
    | _, _, _ => none
  toValue e := .obj [("content", .str e.content)]
  encode _ e := .ok (.obj [("content", .str e.content)])
  payloadBytes := .envelope

theorem typedCodec_jsonTexts : typedCodec.JsonTexts := by
  have htrim : trim typedObject = typedObject ∧
      trim typedObjectEnvelope = typedObjectEnvelope := by
    decide +kernel
  have hread : ∀ text v, typedCodec.parse text = some v →
      text = typedObject ∨ text = typedObjectEnvelope := by
    intro text v hparse
    by_contra hne
    rw [not_or] at hne
    simp [typedCodec, hne.1, hne.2] at hparse
  refine ⟨by decide, ?_, ?_⟩
  · intro text v hparse
    rcases hread text v hparse with rfl | rfl
    · rw [htrim.1]
      exact hparse
    · rw [htrim.2]
      exact hparse
  · intro text members hparse
    rcases hread text _ hparse with rfl | rfl
    · rw [htrim.1]
      decide
    · rw [htrim.2]
      decide

theorem typedCrate_readsFields : typedCrate.ReadsFields := by
  have hread : ∀ v e, typedCrate.fromValue v = some e →
      v.get "content" = some (.str e.content) ∧
        v.get "reply_to_message_id" = none ∧ v.get "mentioned_user_ids" = none ∧
        e = { content := e.content
              metadata := (v.get "metadata").filter (fun v => !v.isNull)
              replyToMessageId := none
              mentionedUserIds := none
              messageSource := none } := by
    intro v e h
    dsimp only [typedCrate] at h
    split at h
    · rename_i content hcontent hreply hmentions
      cases h
      exact ⟨hcontent, hreply, hmentions, rfl⟩
    · cases h
  refine ⟨fun v e h => (hread v e h).1, ?_, ?_, ?_⟩
  · intro v e h
    obtain ⟨-, hreply, -, he⟩ := hread v e h
    rw [hreply, he]
    rfl
  · intro v e h
    obtain ⟨-, -, hmentions, he⟩ := hread v e h
    rw [hmentions, he]
    rfl
  · intro v e h
    obtain ⟨-, -, -, he⟩ := hread v e h
    rw [he]

/-- A text message of user 1 that waits to be sent. -/
def typedRow (content : String) : StoredMessage where
  messageId := 1
  serverMessageId := none
  localMessageId := some 7
  channelId := 10
  channelType := 1
  fromUid := 1
  messageType := 0
  content := content
  status := 0
  createdAt := 0
  updatedAt := 0
  extra := ""
  revoked := false
  revokedBy := none
  mimeType := none
  mediaDownloaded := false
  thumbStatus := 0
  delivered := false
  pts := none

theorem typedRow_carries (content : String) :
    typedCrate.Carries typedCodec (typedRow content).extra none [] :=
  Or.inl ⟨rfl, rfl, rfl⟩

theorem typedRow_roundTrips
    {content : String} (h : content = "old" ∨ content = typedObject) :
    typedCrate.RoundTrips typedCodec 0
      (typedCrate.requestEnvelope typedCodec (typedRow content)
        (typedRow content).content) := by
  rcases h with rfl | rfl
  · exact ⟨⟨_, rfl, rfl⟩, rfl, rfl⟩
  · exact ⟨⟨_, rfl, rfl⟩, rfl, rfl⟩

/-- The text "old" comes through. -/
theorem plain_text_delivered :
    ∃ req, typedCrate.Delivers typedCodec (typedRow "old") 7 none [] req := by
  have hempty : typedCrate.extraEnvelope typedCodec (typedRow "old").extra = none :=
    extraEnvelope_empty
  have hnone : ∀ keys, findIn [typedCodec.parseObject (typedRow "old").content,
      typedCrate.extraMetadata typedCodec (typedRow "old").extra] keys = none := by
    intro keys
    rw [EnvelopeCrate.extraMetadata, hempty]
    rfl
  refine (text_delivered_iff_survives typedCodec_jsonTexts typedCrate_readsFields
    rfl (by decide +kernel) (typedRow_carries "old")
    (typedRow_roundTrips (Or.inl rfl)) 7).mpr ⟨⟨?_, ?_, ?_⟩, ?_, ?_⟩
  · intro v hv
    rw [hnone] at hv
    cases hv
  · intro v hv
    rw [hnone] at hv
    cases hv
  · intro v hv
    rw [hnone] at hv
    cases hv
  · intro hattachment
    cases hattachment
  · intro _ e he
    rw [hempty] at he
    cases he

/-- The typed object is no envelope, but both sides show its member instead. -/
theorem typed_object_not_shown :
    typedCodec.JsonTexts ∧ typedCrate.ReadsFields ∧
      typedCodec.decodeLegacyMessageEnvelope typedObject = none ∧
      typedCrate.Carries typedCodec (typedRow typedObject).extra none [] ∧
      typedCrate.RoundTrips typedCodec 0 (typedCrate.requestEnvelope typedCodec
        (typedRow typedObject) (typedRow typedObject).content) ∧
      ¬ ∃ req, typedCrate.Delivers typedCodec (typedRow typedObject) 7 none []
        req := by
  refine ⟨typedCodec_jsonTexts, typedCrate_readsFields, by decide +kernel,
    typedRow_carries _, typedRow_roundTrips (Or.inr rfl), ?_⟩
  rintro ⟨req, h⟩
  exact absurd h.sender.1 (by decide +kernel)

end Sample

end PrivchatSdk
