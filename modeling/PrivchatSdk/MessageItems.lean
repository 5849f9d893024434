import PrivchatSdk.Store.Attached
import PrivchatSdk.SyncPayload

/-!
# Sync items that name a message

Extra, status, reaction, mention and reminder items name their message by the id
of the server.  The tables they are written to refer to it by the local row id,
and every branch of `apply_sync_entities` goes from one to the other in its own
way: extra, status and reaction items fall back to the number itself, mention and
reminder items always take it as it is.

`missing_target_skipped` says when an item for a message that is not stored leaves
the store alone and lets the rest of its batch through.
-/

namespace PrivchatSdk

open StatementExec RelTable Receive

section Branches

/-- `get_message_id_by_server_message_id`. -/
def getMessageIdByServerMessageId
    (channelId : Nat) (channelType : Int) (serverMessageId : Nat) :
    StoreM (Option Nat) :=
  query "get message id by server_message_id" (fun s =>
    (s.message.rows.find? (fun r =>
      r.serverMessageId == some serverMessageId && r.channelId == channelId &&
        r.channelType == channelType)).map (fun r => r.id))

/-- The payload of an item, or an object without members. -/
def itemPayload (item : SyncEntityItem Json) : Json :=
  item.payload.getD (.obj [])

/-- The id that an item names its message by. -/
def rawMessageId (item : SyncEntityItem Json) : Nat :=
  ((jsonGetU64 (itemPayload item) ["message_id", "server_message_id", "id"]).or
    (parseEntityIdU64 item.entityId)).getD 0

/-- The channel type that an item names, or that of its scope. -/
def itemChannelType (scope : Option String) (payload : Json) : Int :=
  ((parseProtocolChannelType payload
    ["channel_type", "type", "conversation_type"]).or
      ((parseChannelScope scope).map Prod.fst)).getD 1

/-- The channel that an item names, or that of its scope. -/
def itemChannelId (scope : Option String) (payload : Json) : Nat :=
  ((jsonGetU64 payload ["channel_id"]).or
    ((parseChannelScope scope).map Prod.snd)).getD 0

/-- The row id behind a server id of a channel, or the number itself. -/
def resolveMessageId
    (channelId : Nat) (channelType : Int) (raw : Nat) : StoreM Nat :=
  if 0 < channelId then do
    let found ← getMessageIdByServerMessageId channelId channelType raw
    pure (found.getD raw)
  else
    pure raw

/-- The revoke of an extra item. -/
def applyExtraRevoke (payload : Json) (messageId : Nat) : StoreM PUnit :=
  if payload.containsKey "revoke" || payload.containsKey "is_revoked" then
    setMessageRevoke messageId
      ((jsonGetBool payload ["revoke", "is_revoked"]).getD false)
      (jsonGetU64 payload ["revoker", "revoked_by"])
  else
    pure .unit

/-- The edit of an extra item; without a time of its own it counts as new. -/
def Codec.applyExtraEdit
    (codec : Codec) (payload : Json) (messageId : Nat) : StoreM PUnit :=
  match codec.jsonGetString payload ["content_edit", "edited_content"] with
  | some content => do
      let now ← nowMs
      editMessage messageId content
        ((jsonGetI32 payload ["edited_at"]).getD (wrapI32 (now.tdiv 1000)))
  | none => pure .unit

/-- The pin of an extra item. -/
def applyExtraPin (payload : Json) (messageId : Nat) : StoreM PUnit :=
  if payload.containsKey "is_pinned" || payload.containsKey "pinned" then
    setMessagePinned messageId
      ((jsonGetBool payload ["is_pinned", "pinned"]).getD false)
  else
    pure .unit

/-- The `message_extra` branch. -/
def Codec.applyExtraItem
    (codec : Codec) (scope : Option String) (item : SyncEntityItem Json) :
    StoreM PUnit :=
  let payload := itemPayload item
  if rawMessageId item = 0 then
    pure .unit
  else do
    let messageId ← resolveMessageId (itemChannelId scope payload)
      (itemChannelType scope payload) (rawMessageId item)
    applyExtraRevoke payload messageId
    codec.applyExtraEdit payload messageId
    applyExtraPin payload messageId

/-- The fields of a status item. -/
structure MessageStatusSyncPayload where
  messageId : Option Nat
  serverMessageId : Option Nat
  id : Option Nat
  channelId : Option Nat
  channelType : Option Int
  typeField : Option Int
  conversationType : Option Int
  status : Option Int
  deriving DecidableEq, Repr

/-- The default of a status payload. -/
def MessageStatusSyncPayload.default : MessageStatusSyncPayload where
  messageId := none
  serverMessageId := none
  id := none
  channelId := none
  channelType := none
  typeField := none
  conversationType := none
  status := none

/-- The id that a status item names its message by. -/
def rawStatusMessageId (item : SyncEntityItem MessageStatusSyncPayload) : Nat :=
  let p := item.payload.getD .default
  (((p.messageId.or p.serverMessageId).or p.id).or
    (parseEntityIdU64 item.entityId)).getD 0

/-- The row id that a status item is written to; a failed lookup finds nothing. -/
def resolveStatusMessageId
    (channelId : Nat) (channelType : Int) (raw : Nat) : StoreM Nat :=
  if 0 < channelId then do
    let found ← (getMessageIdByServerMessageId channelId channelType raw).attempt
    match found with
    | .ok (some localId) => pure localId
    | _ => pure raw
  else
    pure raw

/-- The `message_status` branch; whether the status could be written is ignored. -/
def applyStatusItem
    (scope : Option String) (item : SyncEntityItem MessageStatusSyncPayload) :
    StoreM PUnit :=
  let p := item.payload.getD .default
  let channel := parseChannelScope scope
  let raw := rawStatusMessageId item
  let channelType := ((((p.channelType.or p.typeField).or p.conversationType).or
    (channel.map Prod.fst)).map (fun v => if v = 0 then 1 else v)).getD 1
  let channelId := (p.channelId.or (channel.map Prod.snd)).getD 0
  if raw = 0 then
    pure .unit
  else do
    let messageId ← resolveStatusMessageId channelId channelType raw
    match p.status with
    | some status => do
        let _ ← (updateMessageStatus messageId status).attempt
        pure .unit
    | none => pure .unit

/-- The `message_reaction` branch. -/
def Codec.applyReactionItem
    (codec : Codec) (scope : Option String) (item : SyncEntityItem Json) :
    StoreM PUnit := do
  let payload := itemPayload item
  let raw := rawMessageId item
  let channelType := itemChannelType scope payload
  let channelId := itemChannelId scope payload
  let messageId ← (if 0 < raw then
      resolveMessageId channelId channelType raw
    else
      pure raw)
  let uid := (jsonGetU64 payload ["uid", "user_id", "sender_id"]).getD 0
  let emoji := (codec.jsonGetString payload ["emoji"]).getD ""
  if messageId = 0 ∨ channelId = 0 ∨ uid = 0 ∨ emoji = "" then
    pure .unit
  else do
    let now ← nowMs
    upsertMessageReaction
      { channelId := channelId
        channelType := channelType
        uid := uid
        name := (codec.jsonGetString payload ["name", "nickname"]).getD ""
        emoji := emoji
        messageId := messageId
        seq := (jsonGetI64 payload ["seq", "version"]).getD (wrapI64 item.version)
        isDeleted := item.deleted ||
          (jsonGetBool payload ["deleted", "is_deleted"]).getD false
        createdAt := (jsonGetI64 payload ["created_at"]).getD now }

/-- The `mention` branch. -/
def applyMentionItem
    (scope : Option String) (item : SyncEntityItem Json) : StoreM PUnit := do
  let payload := itemPayload item
  let messageId := rawMessageId item
  let channelId := itemChannelId scope payload
  let mentionedUserId :=
    (jsonGetU64 payload ["mentioned_user_id", "uid", "user_id"]).getD 0
  if messageId = 0 ∨ channelId = 0 ∨ mentionedUserId = 0 then
    pure .unit
  else do
    let now ← nowMs
    recordMention
      { messageId := messageId
        channelId := channelId
        channelType := itemChannelType scope payload
        mentionedUserId := mentionedUserId
        senderId := (jsonGetU64 payload
          ["sender_id", "from_uid", "from", "operator_id"]).getD 0
        isMentionAll := (jsonGetBool payload ["is_mention_all"]).getD false
        createdAt := (jsonGetI64 payload ["created_at"]).getD now }
    if (jsonGetBool payload ["is_read"]).getD false then do
      let _ ← (markMentionRead messageId mentionedUserId).attempt
      pure .unit
    else
      pure .unit

/-- `mark_reminder_done`. -/
def markReminderDone (reminderId : Nat) (done : Bool) : StoreM PUnit :=
  exec "mark reminder done" (fun s =>
    { s with
      reminder := s.reminder.modify (fun r => r.reminderId == reminderId)
        (fun r => { r with done := done }) (fun _ => rfl) (fun _ => rfl) })

/-- The columns that a reminder item writes. -/
def Codec.reminderInput
    (codec : Codec) (scope : Option String) (item : SyncEntityItem Json)
    (reminderId : Nat) : ReminderRow :=
  let payload := itemPayload item
  { id := 0
    reminderId := reminderId
    messageId :=
      (jsonGetU64 payload ["message_id", "server_message_id"]).getD 0
    pts := (jsonGetI64 payload ["pts", "version"]).getD (wrapI64 item.version)
    channelId := itemChannelId scope payload
    channelType := itemChannelType scope payload
    uid := (jsonGetU64 payload ["uid", "user_id"]).getD 0
    reminderType := (jsonGetI32 payload ["type", "reminder_type"]).getD 0
    text := (codec.jsonGetString payload ["text"]).getD ""
    data := (codec.jsonGetString payload ["data"]).getD ""
    isLocate := (jsonGetBool payload ["is_locate"]).getD false
    version := (jsonGetI64 payload ["version"]).getD (wrapI64 item.version)
    done := item.deleted || (jsonGetBool payload ["done"]).getD false
    needUpload := (jsonGetBool payload ["need_upload"]).getD false
    publisher := jsonGetU64 payload ["publisher"] }

/-- The id of a reminder item. -/
def itemReminderId (item : SyncEntityItem Json) : Nat :=
  ((jsonGetU64 (itemPayload item) ["reminder_id", "id"]).or
    (parseEntityIdU64 item.entityId)).getD 0

/-- The `reminder` branch. -/
def Codec.applyReminderItem
    (codec : Codec) (scope : Option String) (item : SyncEntityItem Json) :
    StoreM PUnit :=
  if itemReminderId item = 0 then
    pure .unit
  else do
    upsertReminder (codec.reminderInput scope item (itemReminderId item))
    if item.deleted then do
      let _ ← (markReminderDone (itemReminderId item) true).attempt
      pure .unit
    else
      pure .unit

end Branches

section Batches

/-- The loop of a branch over the items of a batch; an error ends it. -/
def applyItems
    {ι : Type} (apply : ι → StoreM PUnit) : List ι → StoreM PUnit
  | [] => pure .unit
  | item :: items => do
      apply item
      applyItems apply items

theorem applyItems_cons
    {ι : Type} (apply : ι → StoreM PUnit) (item : ι) (items : List ι) :
    applyItems apply (item :: items) =
      (do apply item; applyItems apply items) := by
  rfl

/--
The branches whose items change the message they name: `message_extra` or
`message_ext`, and `message_status` or `message_read_status`.
-/
inductive MutationType where
  | extra
  | status
  deriving DecidableEq, Repr

variable (codec : Codec) (statusPayload : Json → MessageStatusSyncPayload)

/-- A status item with its payload decoded. -/
def statusItem
    (item : SyncEntityItem Json) : SyncEntityItem MessageStatusSyncPayload where
  entityId := item.entityId
  version := item.version
  deleted := item.deleted
  payload := item.payload.map statusPayload

/-- One turn of the loop of a branch. -/
def MutationType.apply (scope : Option String) (item : SyncEntityItem Json) :
    MutationType → StoreM PUnit
  | .extra => codec.applyExtraItem scope item
  | .status => applyStatusItem scope (statusItem statusPayload item)

/-- The id that an item of the branch names its message by. -/
def MutationType.rawId (item : SyncEntityItem Json) : MutationType → Nat
  | .extra => rawMessageId item
  | .status => rawStatusMessageId (statusItem statusPayload item)

/-- `apply_sync_entities` over one batch of a branch. -/
def MutationType.applyAll
    (type : MutationType) (scope : Option String)
    (items : List (SyncEntityItem Json)) : StoreM PUnit :=
  applyItems (fun item => type.apply codec statusPayload scope item) items

/-- A drained batch is applied, or put back in front of the queue. -/
def MutationType.applyDrained
    (type : MutationType) (p : ReceivePipeline Json) (batch : SyncBatch Json)
    (env : Env) (s : Store) : ReceivePipeline Json × Store :=
  match type.applyAll codec statusPayload batch.scope batch.items env s with
  | (.ok _, s') => (p, s')
  | (.error _, s') => (p.requeueFront batch, s')

end Batches

section SameMessages

/-- The same messages are stored, with the same server ids. -/
structure SameMessages (s s' : Store) : Prop where
  rows : ∀ n, (s'.message.byRowid n).map (fun r => r.serverMessageId) =
    (s.message.byRowid n).map (fun r => r.serverMessageId)

theorem SameMessages.refl (s : Store) : SameMessages s s where
  rows _ := rfl

theorem SameMessages.trans
    (s t u : Store) (h : SameMessages s t) (h' : SameMessages t u) :
    SameMessages s u where
  rows n := (h'.rows n).trans (h.rows n)

theorem ContentStep.sameMessages
    {s s' : Store} (h : ContentStep s s') : SameMessages s s' where
  rows n := by
    have hn := congrArg (Option.map MessageIdentity.serverMessageId) (h.rows n)
    rw [Option.map_map, Option.map_map] at hn
    exact hn

theorem sameMessages_updateMessageStatus (messageId : Nat) (status : Int) :
    (updateMessageStatus messageId status).Relates SameMessages := by
  intro env s
  cases h : updateMessageStatus messageId status env s with
  | mk res s' =>
  unfold Exec.after
  rw [h]
  rcases updateMessageStatus_cases h with ⟨e, -, rfl⟩ | ⟨-, rfl⟩
  · exact .refl s'
  · refine { rows := ?_ }
    intro n
    dsimp only [Store.withStatus]
    rw [Table.byRowid_modify, Option.map_map]
    congr 1
    funext r
    simp only [Function.comp_apply]
    split
    · rfl
    · rfl

theorem SameMessages.byRowid_eq_none
    {s s' : Store} (h : SameMessages s s') {n : Nat}
    (hn : s.message.byRowid n = none) : s'.message.byRowid n = none := by
  have hrow := h.rows n
  rw [hn, Option.map_none] at hrow
  exact Option.map_eq_none_iff.mp hrow

end SameMessages

section MissingTarget

/-- No stored message has this server id. -/
def NotStored (serverMessageId : Nat) (s : Store) : Prop :=
  ∀ r ∈ s.message.rows, r.serverMessageId ≠ some serverMessageId

instance (serverMessageId : Nat) (s : Store) :
    Decidable (NotStored serverMessageId s) :=
  inferInstanceAs (Decidable (∀ r ∈ s.message.rows, _))

theorem SameMessages.notStored
    {s s' : Store} (h : SameMessages s s') {sid : Nat}
    (hs : NotStored sid s) : NotStored sid s' := by
  intro r hr hsid
  have hfound : s'.message.byRowid r.id = some r :=
    (s'.message.byRowid_eq_some_iff _ _).mpr ⟨hr, rfl⟩
  have hrow := h.rows r.id
  rw [hfound, Option.map_some, hsid] at hrow
  obtain ⟨r₀, hr₀, hsid₀⟩ := Option.map_eq_some_iff.mp hrow.symm
  exact hs r₀ ((s.message.byRowid_eq_some_iff _ _).mp hr₀).1 hsid₀

/-- The lookup does not find a message that is not stored. -/
theorem getMessageIdByServerMessageId_of_notStored
    {s : Store} {sid : Nat} (hs : NotStored sid s)
    (channelId : Nat) (channelType now : Int) :
    getMessageIdByServerMessageId channelId channelType sid (.calm now) s =
      (.ok none, s) := by
  refine query_ok.mpr ⟨rfl, ?_, rfl⟩
  rw [List.find?_eq_none.mpr, Option.map_none]
  intro r hr
  simp [hs r hr]

theorem resolveMessageId_of_notStored
    {s : Store} {sid : Nat} (hs : NotStored sid s)
    (channelId : Nat) (channelType now : Int) :
    resolveMessageId channelId channelType sid (.calm now) s =
      (.ok sid, s) := by
  unfold resolveMessageId
  split
  · rw [Exec.bind_run, getMessageIdByServerMessageId_of_notStored hs]
    rfl
  · rfl

theorem resolveStatusMessageId_of_notStored
    {s : Store} {sid : Nat} (hs : NotStored sid s)
    (channelId : Nat) (channelType now : Int) :
    resolveStatusMessageId channelId channelType sid (.calm now) s =
      (.ok sid, s) := by
  unfold resolveStatusMessageId
  split
  · rw [Exec.bind_run]
    unfold Exec.attempt
    rw [getMessageIdByServerMessageId_of_notStored hs]
    rfl
  · rfl

end MissingTarget

section Touch

/-- On a stored message the operation leaves its version on the extra row. -/
def Touches (messageId : Nat) (op : StoreM PUnit) : Prop :=
  ∀ now s, (s.message.byRowid messageId).isSome = true →
    ∃ s', op (.calm now) s = (.ok .unit, s') ∧
      (s'.message.byRowid messageId).isSome = true ∧
      (s'.messageExtra.lookup messageId).map (fun x => x.extraVersion) =
        some now

/-- The operation does nothing, or it touches the message. -/
def IdleOrTouches (messageId : Nat) (op : StoreM PUnit) : Prop :=
  op = pure .unit ∨ Touches messageId op

theorem Touches.bind_left
    {m : Nat} {op next : StoreM PUnit}
    (hop : Touches m op) (hnext : IdleOrTouches m next) :
    Touches m (do op; next) := by
  intro now s hrow
  obtain ⟨s₁, hrun, hrow₁, hversion⟩ := hop now s hrow
  rw [Exec.bind_run, hrun]
  rcases hnext with rfl | htouch
  · exact ⟨s₁, rfl, hrow₁, hversion⟩
  · exact htouch now s₁ hrow₁

theorem Touches.bind_right
    {m : Nat} {op next : StoreM PUnit}
    (hop : IdleOrTouches m op) (hnext : Touches m next) :
    Touches m (do op; next) := by
  rcases hop with rfl | htouch
  · exact hnext
  · exact htouch.bind_left (Or.inr hnext)

theorem IdleOrTouches.bind
    {m : Nat} {op next : StoreM PUnit}
    (hop : IdleOrTouches m op) (hnext : IdleOrTouches m next) :
    IdleOrTouches m (do op; next) := by
  rcases hop with rfl | htouch
  · exact hnext
  · exact Or.inr (htouch.bind_left hnext)

/-- What touches a stored message changes the store at one clock reading or another. -/
theorem Touches.not_idle
    {m : Nat} {op : StoreM PUnit} (hop : Touches m op) {s : Store}
    (hrow : (s.message.byRowid m).isSome = true) :
    ¬ ∀ now, op (.calm now) s = (.ok .unit, s) := by
  intro hidle
  have hversion : ∀ now : Int,
      (s.messageExtra.lookup m).map (fun x => x.extraVersion) = some now := by
    intro now
    obtain ⟨s', hrun, -, hversion⟩ := hop now s hrow
    rw [hidle now] at hrun
    cases hrun
    exact hversion
  have h01 := (hversion 0).symm.trans (hversion 1)
  simp at h01

/-- The version that an extra upsert leaves. -/
theorem extraVersion_upsertedExtra
    (t : Table MessageExtraRow) (m channelId : Nat) (channelType : Int)
    {version : Int} {write : ExtraWrite} (hw : ∀ r, (write.apply r).extraVersion = version) :
    ((upsertedExtra t m channelId channelType write write).lookup m).map
      (fun x => x.extraVersion) = some version := by
  rw [lookup_upsertedExtra_self, Option.map_some]
  cases t.lookup m with
  | none =>
      exact congrArg some (hw _)
  | some x =>
      exact congrArg some (hw _)

theorem isSome_byRowid_modify
    {t : Table MessageRow} {p : MessageRow → Bool} {f : MessageRow → MessageRow}
    {m : Nat} {row : MessageRow} (hrow : t.byRowid m = some row)
    (hid hkeys) :
    ((t.modify p f hid hkeys).byRowid m).isSome = true := by
  rw [Table.byRowid_modify, hrow]
  rfl

theorem touches_setMessageRevoke
    (m : Nat) (revoked : Bool) (revoker : Option Nat) :
    Touches m (setMessageRevoke m revoked revoker) := by
  intro now s hrow
  obtain ⟨row, hrow⟩ := Option.isSome_iff_exists.mp hrow
  have hversion := fun t : Table MessageExtraRow =>
    @extraVersion_upsertedExtra t m row.channelId row.channelType _
      (revokeWrite revoked revoker now) (fun _ => rfl)
  have hrun : ∀ s', (if revoked then
        modifyExisting "update revoked message row"
          s!"set message revoke failed: message.id={m} not found"
          m (MessageRow.tombstone now) (fun _ => rfl) (fun _ => rfl)
      else
        pure .unit) (.calm now)
      { s with
        messageExtra := upsertedExtra s.messageExtra m row.channelId
          row.channelType (revokeWrite revoked revoker now)
          (revokeWrite revoked revoker now) } = (.ok .unit, s') →
      setMessageRevoke m revoked revoker (.calm now) s = (.ok .unit, s') := by
    intro s' hlast
    refine Exec.bind_ok.mpr ⟨some row, s, query_ok.mpr ⟨rfl, hrow, rfl⟩, ?_⟩
    refine Exec.bind_ok.mpr ⟨now, s, rfl, ?_⟩
    exact Exec.bind_ok.mpr ⟨.unit, _, exec_ok.mpr ⟨rfl, rfl⟩, hlast⟩
  cases revoked with
  | false =>
      exact ⟨_, hrun _ rfl, by simp [hrow], hversion _⟩
  | true =>
      refine ⟨_, hrun _ (modifyExisting_calm hrow), ?_, hversion _⟩
      refine isSome_byRowid_modify hrow (fun _ => ?_) (fun _ => ?_)
      · rfl
      · rfl

theorem touches_editMessage (m : Nat) (content : String) (editedAt : Int) :
    Touches m (editMessage m content editedAt) := by
  intro now s hrow
  obtain ⟨row, hrow⟩ := Option.isSome_iff_exists.mp hrow
  refine ⟨_, Exec.bind_ok.mpr ⟨now, s, rfl, Exec.bind_ok.mpr
    ⟨.unit, _, modifyExisting_calm hrow, Exec.bind_ok.mpr
      ⟨{ row with content := content, updatedAt := now }, _,
        queryRow_ok.mpr ⟨rfl, ?_, rfl⟩, exec_ok.mpr ⟨rfl, rfl⟩⟩⟩⟩, ?_, ?_⟩
  · obtain ⟨-, hrid⟩ := (s.message.byRowid_eq_some_iff _ _).mp hrow
    rw [Table.byRowid_modify, hrow, Option.map_some]
    rw [if_pos (by simpa using hrid)]
  · refine isSome_byRowid_modify hrow (fun _ => ?_) (fun _ => ?_)
    · rfl
    · rfl
  · exact extraVersion_upsertedExtra _ _ _ _ (fun _ => rfl)

theorem touches_setMessagePinned (m : Nat) (isPinned : Bool) :
    Touches m (setMessagePinned m isPinned) := by
  intro now s hrow
  obtain ⟨row, hrow⟩ := Option.isSome_iff_exists.mp hrow
  refine ⟨_, Exec.bind_ok.mpr ⟨row, s, queryRow_ok.mpr ⟨rfl, hrow, rfl⟩,
    Exec.bind_ok.mpr ⟨now, s, rfl, exec_ok.mpr ⟨rfl, rfl⟩⟩⟩, ?_, ?_⟩
  · simp [hrow]
  · exact extraVersion_upsertedExtra _ _ _ _ (fun _ => rfl)

end Touch

section Frame

variable (codec : Codec) (statusPayload : Json → MessageStatusSyncPayload)

theorem contentStep_resolveMessageId
    (channelId : Nat) (channelType : Int) (raw : Nat) :
    (resolveMessageId channelId channelType raw).Relates ContentStep := by
  refine Exec.Relates.ite ?_ (Exec.relates_pure ContentStep.refl _)
  exact Exec.Relates.bind ContentStep.trans
    (relates_query ContentStep.refl _ _)
    (fun found => Exec.relates_pure ContentStep.refl _)

theorem contentStep_applyExtraEdit (payload : Json) (messageId : Nat) :
    (codec.applyExtraEdit payload messageId).Relates ContentStep := by
  unfold Codec.applyExtraEdit
  split
  · exact Exec.Relates.bind ContentStep.trans (relates_nowMs ContentStep.refl)
      (fun now => contentStep_editMessage _ _ _)
  · exact Exec.relates_pure ContentStep.refl _

/-- An extra item changes contents and extras only. -/
theorem contentStep_applyExtraItem
    (scope : Option String) (item : SyncEntityItem Json) :
    (codec.applyExtraItem scope item).Relates ContentStep := by
  refine Exec.Relates.ite (Exec.relates_pure ContentStep.refl _) ?_
  refine Exec.Relates.bind ContentStep.trans
    (contentStep_resolveMessageId _ _ _) (fun messageId => ?_)
  refine Exec.Relates.bind ContentStep.trans ?_ (fun _ => ?_)
  · exact Exec.Relates.ite (contentStep_setMessageRevoke _ _ _)
      (Exec.relates_pure ContentStep.refl _)
  refine Exec.Relates.bind ContentStep.trans
    (contentStep_applyExtraEdit codec _ _) (fun _ => ?_)
  exact Exec.Relates.ite (contentStep_setMessagePinned _ _)
    (Exec.relates_pure ContentStep.refl _)

/-- A status item changes a status only. -/
theorem sameMessages_applyStatusItem
    (scope : Option String) (item : SyncEntityItem MessageStatusSyncPayload) :
    (applyStatusItem scope item).Relates SameMessages := by
  have hpure : ∀ u, (pure u : StoreM PUnit).Relates SameMessages :=
    Exec.relates_pure SameMessages.refl
  refine Exec.Relates.ite (hpure _) ?_
  refine Exec.Relates.bind SameMessages.trans ?_ (fun messageId => ?_)
  · refine Exec.Relates.ite ?_ (Exec.relates_pure SameMessages.refl _)
    refine Exec.Relates.bind SameMessages.trans
      (relates_query SameMessages.refl _ _).attempt (fun found => ?_)
    split
    · exact Exec.relates_pure SameMessages.refl _
    · exact Exec.relates_pure SameMessages.refl _
  · split
    · exact Exec.Relates.bind SameMessages.trans
        (sameMessages_updateMessageStatus _ _).attempt (fun _ => hpure _)
    · exact hpure _

theorem MutationType.sameMessages_apply
    (type : MutationType) (scope : Option String)
    (item : SyncEntityItem Json) :
    (type.apply codec statusPayload scope item).Relates SameMessages := by
  cases type with
  | extra =>
      intro env s
      exact (contentStep_applyExtraItem codec scope item env s).sameMessages
  | status =>
      exact sameMessages_applyStatusItem scope _

/-- Items that do nothing can be left out of a batch. -/
theorem applyItems_filter
    {ι : Type} {apply : ι → StoreM PUnit}
    (hrel : ∀ item, (apply item).Relates SameMessages)
    {env : Env} {s₀ : Store} (idle : ι → Bool) {items : List ι}
    (hidle : ∀ item ∈ items, idle item = true → ∀ s, SameMessages s₀ s →
      apply item env s = (.ok .unit, s)) :
    ∀ s, SameMessages s₀ s →
      applyItems apply items env s =
        applyItems apply (items.filter (fun item => !idle item)) env s := by
  induction items with
  | nil =>
      intro s _
      rfl
  | cons item items ih =>
      intro s hs
      have htail := ih (fun i hi => hidle i (List.mem_cons_of_mem _ hi))
      cases hitem : idle item with
      | true =>
          rw [List.filter_cons_of_neg (by simp [hitem]), ← htail s hs]
          rw [applyItems_cons, Exec.bind_run,
            hidle item List.mem_cons_self hitem s hs]
      | false =>
          rw [List.filter_cons_of_pos (by simp [hitem])]
          rw [applyItems_cons, applyItems_cons, Exec.bind_run, Exec.bind_run]
          have hstep := hrel item env s
          unfold Exec.after at hstep
          split
          · rename_i u s₁ hrun
            rw [hrun] at hstep
            exact htail s₁ (SameMessages.trans _ _ _ hs hstep)
          · rfl

end Frame

section Skipped

variable (codec : Codec) (statusPayload : Json → MessageStatusSyncPayload)

/-- The item names a message that is not stored. -/
def MutationType.Missing
    (s : Store) (item : SyncEntityItem Json) (type : MutationType) : Prop :=
  0 < type.rawId statusPayload item ∧
    NotStored (type.rawId statusPayload item) s

instance (s : Store) (item : SyncEntityItem Json) (type : MutationType) :
    Decidable (type.Missing statusPayload s item) :=
  inferInstanceAs (Decidable (_ ∧ _))

/--
What an item for a message that is not stored may carry: a revoke or a status,
while no row has the id of the server as its row id.
-/
def MutationType.Harmless
    (s : Store) (item : SyncEntityItem Json) : MutationType → Prop
  | .extra =>
      let payload := itemPayload item
      codec.jsonGetString payload ["content_edit", "edited_content"] = none ∧
        payload.containsKey "is_pinned" = false ∧
        payload.containsKey "pinned" = false ∧
        ((payload.containsKey "revoke" || payload.containsKey "is_revoked") =
            true → s.message.byRowid (rawMessageId item) = none)
  | .status =>
      ((statusItem statusPayload item).payload.getD .default).status = none ∨
        s.message.byRowid
          (rawStatusMessageId (statusItem statusPayload item)) = none

variable {codec statusPayload}

/-- A missing message is looked for under the id of the server as row id. -/
theorem applyExtraItem_missing
    {s : Store} {item : SyncEntityItem Json}
    (hmiss : MutationType.extra.Missing statusPayload s item)
    (scope : Option String) (now : Int) :
    codec.applyExtraItem scope item (.calm now) s =
      (do
        applyExtraRevoke (itemPayload item) (rawMessageId item)
        codec.applyExtraEdit (itemPayload item) (rawMessageId item)
        applyExtraPin (itemPayload item) (rawMessageId item) : StoreM PUnit)
        (.calm now) s := by
  have hpos : rawMessageId item ≠ 0 := Nat.pos_iff_ne_zero.mp hmiss.1
  have hnot : NotStored (rawMessageId item) s := hmiss.2
  unfold Codec.applyExtraItem
  rw [if_neg hpos, Exec.bind_run,
    resolveMessageId_of_notStored hnot]

theorem applyStatusItem_missing
    {s : Store} {item : SyncEntityItem Json}
    (hmiss : MutationType.status.Missing statusPayload s item)
    (scope : Option String) (now : Int) :
    applyStatusItem scope (statusItem statusPayload item) (.calm now) s =
      match ((statusItem statusPayload item).payload.getD .default).status with
      | some status =>
          (.ok .unit, (updateMessageStatus
            (rawStatusMessageId (statusItem statusPayload item))
            status).after (.calm now) s)
      | none => (.ok .unit, s) := by
  have hpos : rawStatusMessageId (statusItem statusPayload item) ≠ 0 :=
    Nat.pos_iff_ne_zero.mp hmiss.1
  have hnot : NotStored
      (rawStatusMessageId (statusItem statusPayload item)) s := hmiss.2
  unfold applyStatusItem
  rw [if_neg hpos, Exec.bind_run,
    resolveStatusMessageId_of_notStored hnot]
  dsimp only
  cases ((statusItem statusPayload item).payload.getD .default).status with
  | none =>
      rfl
  | some status =>
      rfl

theorem setMessageRevoke_none
    {s : Store} {m : Nat} (hrow : s.message.byRowid m = none)
    (revoked : Bool) (revoker : Option Nat) (now : Int) :
    setMessageRevoke m revoked revoker (.calm now) s = (.ok .unit, s) :=
  Exec.bind_ok.mpr ⟨none, s, query_ok.mpr ⟨rfl, hrow, rfl⟩, rfl⟩

/-- A harmless item is skipped. -/
theorem MutationType.apply_of_harmless
    {type : MutationType} {s : Store} {item : SyncEntityItem Json}
    (hmiss : type.Missing statusPayload s item)
    (hharm : type.Harmless codec statusPayload s item)
    (scope : Option String) (now : Int) :
    type.apply codec statusPayload scope item (.calm now) s =
      (.ok .unit, s) := by
  cases type with
  | extra =>
      obtain ⟨hedit, hpin, hpinned, hrevoke⟩ := hharm
      refine (applyExtraItem_missing hmiss scope now).trans ?_
      have hrun : applyExtraRevoke (itemPayload item) (rawMessageId item)
          (.calm now) s = (.ok .unit, s) := by
        unfold applyExtraRevoke
        split
        · rename_i hkey
          exact setMessageRevoke_none (hrevoke hkey) _ _ _
        · rfl
      rw [Exec.bind_run, hrun]
      unfold Codec.applyExtraEdit applyExtraPin
      rw [hedit, hpin, hpinned]
      rfl
  | status =>
      refine (applyStatusItem_missing hmiss scope now).trans ?_
      rcases hharm with hnone | hrow
      · rw [hnone]
      · split
        · rename_i status _
          unfold Exec.after updateMessageStatus
          rw [nowMs_bind, modifyExisting_none hrow]
        · rfl

theorem touches_applyExtraRevoke
    {payload : Json} {m : Nat}
    (hkey : (payload.containsKey "revoke" || payload.containsKey "is_revoked") =
      true) :
    Touches m (applyExtraRevoke payload m) := by
  unfold applyExtraRevoke
  rw [if_pos hkey]
  exact touches_setMessageRevoke m _ _

theorem idleOrTouches_applyExtraRevoke (payload : Json) (m : Nat) :
    IdleOrTouches m (applyExtraRevoke payload m) := by
  by_cases hkey : (payload.containsKey "revoke" ||
      payload.containsKey "is_revoked") = true
  · exact Or.inr (touches_applyExtraRevoke hkey)
  · refine Or.inl ?_
    unfold applyExtraRevoke
    rw [if_neg hkey]

theorem touches_applyExtraEdit
    {payload : Json} {content : String}
    (hedit : codec.jsonGetString payload ["content_edit", "edited_content"] =
      some content) (m : Nat) :
    Touches m (codec.applyExtraEdit payload m) := by
  unfold Codec.applyExtraEdit
  rw [hedit]
  intro now s hrow
  exact touches_editMessage m content _ now s hrow

theorem idleOrTouches_applyExtraEdit (payload : Json) (m : Nat) :
    IdleOrTouches m (codec.applyExtraEdit payload m) := by
  cases hedit : codec.jsonGetString payload ["content_edit", "edited_content"]
    with
  | some content =>
      exact Or.inr (touches_applyExtraEdit hedit m)
  | none =>
      refine Or.inl ?_
      unfold Codec.applyExtraEdit
      rw [hedit]

theorem touches_applyExtraPin
    {payload : Json} {m : Nat}
    (hkey : (payload.containsKey "is_pinned" || payload.containsKey "pinned") =
      true) :
    Touches m (applyExtraPin payload m) := by
  unfold applyExtraPin
  rw [if_pos hkey]
  exact touches_setMessagePinned m _

theorem idleOrTouches_applyExtraPin (payload : Json) (m : Nat) :
    IdleOrTouches m (applyExtraPin payload m) := by
  by_cases hkey : (payload.containsKey "is_pinned" ||
      payload.containsKey "pinned") = true
  · exact Or.inr (touches_applyExtraPin hkey)
  · refine Or.inl ?_
    unfold applyExtraPin
    rw [if_neg hkey]

/-- On a row with the id of the server, an idle item carries no mutation. -/
theorem harmless_of_idle_row
    {s : Store} {payload : Json} {m : Nat}
    (hrow : (s.message.byRowid m).isSome = true)
    (hidle : ∀ now, (do
      applyExtraRevoke payload m
      codec.applyExtraEdit payload m
      applyExtraPin payload m : StoreM PUnit) (.calm now) s = (.ok .unit, s)) :
    (payload.containsKey "revoke" || payload.containsKey "is_revoked") = false ∧
      codec.jsonGetString payload ["content_edit", "edited_content"] = none ∧
      (payload.containsKey "is_pinned" || payload.containsKey "pinned") =
        false := by
  have hpin := idleOrTouches_applyExtraPin payload m
  have hedit := @idleOrTouches_applyExtraEdit codec payload m
  have hrevoke := idleOrTouches_applyExtraRevoke payload m
  refine ⟨?_, ?_, ?_⟩
  · by_contra hkey
    have htouch := touches_applyExtraRevoke (m := m) (Bool.not_eq_false _ ▸ hkey)
    exact (htouch.bind_left (hedit.bind hpin)).not_idle hrow hidle
  · by_contra hsome
    obtain ⟨content, hsome⟩ := Option.ne_none_iff_exists'.mp hsome
    have htouch := touches_applyExtraEdit hsome m
    exact (Touches.bind_right hrevoke (htouch.bind_left hpin)).not_idle hrow
      hidle
  · by_contra hkey
    have htouch := touches_applyExtraPin (m := m) (Bool.not_eq_false _ ▸ hkey)
    exact (Touches.bind_right hrevoke (.bind_right hedit htouch)).not_idle hrow
      hidle

/-- Without a row, an edit or a pin is an error. -/
theorem harmless_of_idle_none
    {s : Store} {payload : Json} {m : Nat} (hrow : s.message.byRowid m = none)
    (hidle : (do
      applyExtraRevoke payload m
      codec.applyExtraEdit payload m
      applyExtraPin payload m : StoreM PUnit) (.calm 0) s = (.ok .unit, s)) :
    codec.jsonGetString payload ["content_edit", "edited_content"] = none ∧
      (payload.containsKey "is_pinned" || payload.containsKey "pinned") =
        false := by
  obtain ⟨_, s₁, hrevoke, hrest⟩ := Exec.bind_ok.mp hidle
  obtain ⟨_, s₂, hedit, hpin⟩ := Exec.bind_ok.mp hrest
  have hs₁ : s₁.message.byRowid m = none := by
    have hstep : ContentStep s s₁ := by
      have hrel : (applyExtraRevoke payload m).Relates ContentStep :=
        Exec.Relates.ite (contentStep_setMessageRevoke _ _ _)
          (Exec.relates_pure ContentStep.refl _)
      have := hrel (.calm 0) s
      unfold Exec.after at this
      rwa [hrevoke] at this
    exact hstep.sameMessages.byRowid_eq_none hrow
  have hnone : codec.jsonGetString payload ["content_edit", "edited_content"] =
      none := by
    cases hsome : codec.jsonGetString payload ["content_edit", "edited_content"]
      with
    | none =>
        rfl
    | some content =>
        unfold Codec.applyExtraEdit editMessage at hedit
        rw [hsome] at hedit
        dsimp only at hedit
        rw [nowMs_bind, nowMs_bind, Exec.bind_run,
          modifyExisting_none hs₁] at hedit
        cases hedit
  refine ⟨hnone, ?_⟩
  by_contra hkey
  unfold Codec.applyExtraEdit at hedit
  rw [hnone] at hedit
  cases hedit
  unfold applyExtraPin setMessagePinned at hpin
  rw [if_pos (Bool.not_eq_false _ ▸ hkey)] at hpin
  obtain ⟨row, s₂, hq, -⟩ := Exec.bind_ok.mp hpin
  obtain ⟨-, hfound, -⟩ := queryRow_ok.mp hq
  rw [hs₁] at hfound
  cases hfound

/-- A status that is written moves the update time of its row. -/
theorem updateMessageStatus_not_idle
    {s : Store} {m : Nat} {row : MessageRow}
    (hrow : s.message.byRowid m = some row) (status : Int) :
    ¬ ∀ now, (updateMessageStatus m status).after (.calm now) s = s := by
  intro hidle
  have htime : ∀ now : Int, row.updatedAt = now := by
    intro now
    have hafter := hidle now
    unfold Exec.after updateMessageStatus at hafter
    rw [nowMs_bind, modifyExisting_calm hrow] at hafter
    have hfound := congrArg (fun t => t.message.byRowid m) hafter
    dsimp only at hfound
    obtain ⟨-, hrid⟩ := (s.message.byRowid_eq_some_iff _ _).mp hrow
    rw [Table.byRowid_modify, hrow, Option.map_some,
      if_pos (by simpa using hrid), Option.some.injEq] at hfound
    exact (congrArg MessageRow.updatedAt hfound).symm
  have h01 := (htime 0).symm.trans (htime 1)
  simp at h01

/-- A missing item is skipped at every clock reading exactly when it is harmless. -/
theorem MutationType.apply_idle_iff
    {type : MutationType} {s : Store} {item : SyncEntityItem Json}
    (hmiss : type.Missing statusPayload s item) (scope : Option String) :
    (∀ now, type.apply codec statusPayload scope item (.calm now) s =
        (.ok .unit, s)) ↔
      type.Harmless codec statusPayload s item := by
  refine ⟨?_, fun hharm now => apply_of_harmless hmiss hharm scope now⟩
  intro hidle
  cases type with
  | extra =>
      have hseq := fun now =>
        (@applyExtraItem_missing codec _ s item hmiss scope now).symm.trans
          (hidle now)
      cases hrow : s.message.byRowid (rawMessageId item) with
      | none =>
          obtain ⟨hedit, hpin⟩ := harmless_of_idle_none hrow (hseq 0)
          obtain ⟨hpin, hpinned⟩ := Bool.or_eq_false_iff.mp hpin
          exact ⟨hedit, hpin, hpinned, fun _ => hrow⟩
      | some row =>
          have hsome : (s.message.byRowid (rawMessageId item)).isSome = true := by
            rw [hrow]
            rfl
          obtain ⟨hrevoke, hedit, hpin⟩ := harmless_of_idle_row hsome hseq
          obtain ⟨hpin, hpinned⟩ := Bool.or_eq_false_iff.mp hpin
          refine ⟨hedit, hpin, hpinned, fun hkey => ?_⟩
          rw [hrevoke] at hkey
          cases hkey
  | status =>
      have hrun := fun now =>
        (applyStatusItem_missing hmiss scope now).symm.trans (hidle now)
      cases hstatus :
          ((statusItem statusPayload item).payload.getD .default).status with
      | none =>
          exact Or.inl hstatus
      | some status =>
          refine Or.inr ?_
          cases hrow : s.message.byRowid
              (rawStatusMessageId (statusItem statusPayload item)) with
          | none =>
              rfl
          | some row =>
              exfalso
              refine updateMessageStatus_not_idle hrow status (fun now => ?_)
              have hnow := hrun now
              rw [hstatus] at hnow
              exact congrArg Prod.snd hnow

/-- Harmless items can be left out of a batch. -/
theorem MutationType.applyAll_others
    {type : MutationType} {s : Store} {items : List (SyncEntityItem Json)}
    (hharm : ∀ item ∈ items, type.Missing statusPayload s item →
      type.Harmless codec statusPayload s item)
    (scope : Option String) (now : Int) :
    type.applyAll codec statusPayload scope items (.calm now) s =
      type.applyAll codec statusPayload scope
        (items.filter (fun item => !decide (type.Missing statusPayload s item)))
        (.calm now) s := by
  refine applyItems_filter (type.sameMessages_apply codec statusPayload scope)
    (fun item => decide (type.Missing statusPayload s item)) ?_ s (.refl s)
  intro item hitem hmiss s₁ hs₁
  have hmiss := of_decide_eq_true hmiss
  refine apply_of_harmless ⟨hmiss.1, hs₁.notStored hmiss.2⟩ ?_ scope now
  have hkeep := hharm item hitem hmiss
  cases type with
  | extra =>
      obtain ⟨hedit, hpin, hpinned, hrevoke⟩ := hkeep
      exact ⟨hedit, hpin, hpinned,
        fun hkey => hs₁.byRowid_eq_none (hrevoke hkey)⟩
  | status =>
      exact hkeep.imp_right hs₁.byRowid_eq_none

variable (codec statusPayload)

/--
However the items of a batch are batched, those for messages that are not stored
change nothing and do not bring the batch back into the queue, exactly when each
of them is harmless.
-/
theorem missing_target_skipped
    (type : MutationType) (batch : SyncBatch Json) (s : Store) :
    (∀ items ⊆ batch.items, ∀ (p : ReceivePipeline Json) (now : Int),
        type.applyDrained codec statusPayload p
            { batch with items := items } (.calm now) s =
          match type.applyAll codec statusPayload batch.scope
              (items.filter (fun item =>
                !decide (type.Missing statusPayload s item)))
              (.calm now) s with
          | (.ok _, s') => (p, s')
          | (.error _, s') =>
              (p.requeueFront { batch with items := items }, s')) ↔
      ∀ item ∈ batch.items, type.Missing statusPayload s item →
        type.Harmless codec statusPayload s item := by
  constructor
  · intro hskip item hitem hmiss
    refine (MutationType.apply_idle_iff hmiss batch.scope).mp (fun now => ?_)
    have hone := hskip [item] (by simpa using hitem) (.new 512) now
    rw [List.filter_cons_of_neg (by simpa using hmiss), List.filter_nil] at hone
    have hrun : type.applyAll codec statusPayload batch.scope [item]
        (.calm now) s =
          ((type.apply codec statusPayload batch.scope item (.calm now) s).1,
            (type.apply codec statusPayload batch.scope item
              (.calm now) s).2) := by
      unfold MutationType.applyAll
      rw [applyItems_cons, Exec.bind_run]
      split
      · rename_i u s₁ happly
        rw [happly]
        rfl
      · rename_i e s₁ happly
        rw [happly]
    unfold MutationType.applyDrained at hone
    dsimp only at hone
    rw [hrun] at hone
    cases happly : type.apply codec statusPayload batch.scope item
        (.calm now) s with
    | mk res s₁ =>
    rw [happly] at hone
    cases res with
    | ok u =>
        have hs : s₁ = s := congrArg Prod.snd hone
        rw [hs]
    | error e =>
        have hqueue := congrArg (fun r => r.1.queue.length) hone
        simp [ReceivePipeline.requeueFront, ReceivePipeline.new,
          MutationType.applyAll, applyItems] at hqueue
  · intro hharm items hitems p now
    unfold MutationType.applyDrained
    dsimp only
    rw [MutationType.applyAll_others
      (fun item hitem => hharm item (hitems hitem)) batch.scope now]

end Skipped

section Sample

/-- An item for a message of channel 10 with two more members. -/
def sampleItem (sid : Nat) (key : String) (value : Json) :
    SyncEntityItem Json where
  entityId := "item"
  version := 1
  deleted := false
  payload := some (.obj
    [("message_id", .int sid), ("channel_id", .int 10), (key, value)])

/-- Message 901 is stored in row 1. -/
def sampleStore : Store :=
  Store.empty.afterUpsert none (.calm 1) (.text 901 0 10 2 5 "hi")

/--
An edit for a message that is not stored puts its batch back, with the revoke of
the stored message behind it; and a pin for message 1 pins row 1, message 901.
-/
theorem missing_target_blocks :
    (let batch : SyncBatch Json := ⟨"message_extra", none,
        [sampleItem 900 "content_edit" (.str "x"),
          sampleItem 901 "revoke" (.bool true)]⟩
      let after := MutationType.extra.applyDrained sampleCodec
        (fun _ => .default) (.new 512) batch (.calm 2) sampleStore
      after.1.queue.length = 1 ∧ after.2.messageExtra.rows = []) ∧
    ((MutationType.extra.applyDrained sampleCodec (fun _ => .default) (.new 512)
        ⟨"message_extra", none, [sampleItem 1 "pinned" (.bool true)]⟩
        (.calm 2) sampleStore).2.messageExtra.lookup 1).map
          (fun x => x.isPinned) = some true := by
  decide +kernel

end Sample

end PrivchatSdk
