import PrivchatSdk.Store.Upsert

/-!
# Changes to a stored message

Revokes, edits, pins, delivery receipts, status and content writes, and local
deletion.  What changes a message lives partly in its row and partly in its
`message_extra` row; the operations write the two in separate statements, and
only the deletions do so in a transaction.

Each operation has a case lemma that lists what it can do to the store.
-/

namespace PrivchatSdk

open StatementExec RelTable

section Stored

/-- A message as the readers see it: the row joined with its extra row. -/
structure StoredMessage where
  messageId : Nat
  serverMessageId : Option Nat
  localMessageId : Option Nat
  channelId : Nat
  channelType : Int
  fromUid : Nat
  messageType : Int
  content : String
  status : Int
  createdAt : Int
  updatedAt : Int
  extra : String
  revoked : Bool
  revokedBy : Option Nat
  mimeType : Option String
  mediaDownloaded : Bool
  thumbStatus : Int
  delivered : Bool
  pts : Option Int
  deriving DecidableEq, Repr

/-- The columns of the joined row. -/
def MessageRow.toStored
    (r : MessageRow) (extra : Option MessageExtraRow) : StoredMessage where
  messageId := r.id
  serverMessageId := r.serverMessageId
  localMessageId := if 0 < r.localMessageId then some r.localMessageId else none
  channelId := r.channelId
  channelType := r.channelType
  fromUid := r.fromUid
  messageType := r.messageType
  content := r.content
  status := r.status
  createdAt := r.createdAt
  updatedAt := r.updatedAt
  extra := r.extra
  revoked := extra.any (fun x => x.revoke)
  revokedBy := extra.bind (fun x => x.revoker)
  mimeType := r.mimeType
  mediaDownloaded := r.mediaDownloaded
  thumbStatus := r.thumbStatus
  delivered := extra.any (fun x => x.delivered)
  pts := if 0 < r.pts then some r.pts else none

/-- The joined row of a message id. -/
def Store.storedMessage (s : Store) (messageId : Nat) : Option StoredMessage :=
  (s.message.byRowid messageId).map
    (fun r => r.toStored (s.messageExtra.lookup r.id))

/-- `get_message_by_id`. -/
def getMessageById (messageId : Nat) : StoreM (Option StoredMessage) :=
  query "get message by id" (fun s => s.storedMessage messageId)

end Stored

section Columns

/-- `UPDATE message .. WHERE id = ?`, refused when no row matches. -/
def modifyExisting
    (context notFound : String) (messageId : Nat)
    (f : MessageRow → MessageRow)
    (hid : ∀ r, Record.rowid (f r) = Record.rowid r)
    (hkeys : ∀ r, Record.keys (f r) = Record.keys r) :
    StoreM PUnit := do
  let updated ← modifyMessage context (fun r => r.id == messageId) f hid hkeys
  if updated = 0 then
    Exec.fail (.storage notFound none)
  else
    pure .unit

/-- Either nothing was written, or exactly the columns of the one row. -/
theorem modifyExisting_cases
    {context notFound : String} {messageId : Nat}
    {f : MessageRow → MessageRow} {hid hkeys}
    {env : Env} {s s' : Store} {res : Except StoreError PUnit}
    (h : modifyExisting context notFound messageId f hid hkeys env s =
      (res, s')) :
    (∃ e, res = .error e ∧ s' = s) ∨
      (res = .ok .unit ∧ (s.message.byRowid messageId).isSome = true ∧
        s' = { s with message :=
          s.message.modify (fun r => r.id == messageId) f hid hkeys }) := by
  unfold modifyExisting at h
  rw [Exec.bind_run] at h
  split at h
  · rename_i n s₁ hm
    obtain ⟨-, hcount, rfl⟩ := modifyMessage_ok.mp hm
    split at h
    · rename_i hzero
      cases h
      refine Or.inl ⟨_, rfl, ?_⟩
      have hnone : ∀ r ∈ s.message.rows, (r.id == messageId) = false := by
        rw [hzero, List.countP_eq_zero] at hcount
        intro r hr
        simpa using hcount r hr
      rw [s.message.modify_eq_self _ f hid hkeys hnone]
    · rename_i hpos
      cases h
      refine Or.inr ⟨rfl, ?_, rfl⟩
      have hp : 0 < s.message.rows.countP (fun r => r.id == messageId) := by
        omega
      obtain ⟨r, hr, hrid⟩ := List.countP_pos_iff.mp hp
      exact Option.isSome_iff_exists.mpr
        ⟨r, (s.message.byRowid_eq_some_iff _ _).mpr ⟨hr, by simpa using hrid⟩⟩
  · rename_i e s₁ hm
    cases h
    exact Or.inl ⟨e, rfl, (modifyMessage_error hm).1⟩

/-- If the statement does not fail, the columns of a stored row are written. -/
theorem modifyExisting_found
    {context notFound : String} {m : Nat} {f : MessageRow → MessageRow}
    {hid hkeys} {s : Store} {env : Env} {row : MessageRow}
    (hfault : env.fault context = false)
    (hrow : s.message.byRowid m = some row) :
    modifyExisting context notFound m f hid hkeys env s =
      (.ok .unit,
        { s with message := s.message.modify (fun r => r.id == m) f hid hkeys })
    := by
  obtain ⟨hmem, hrid⟩ := (s.message.byRowid_eq_some_iff _ _).mp hrow
  have hcount : s.message.rows.countP (fun r => r.id == m) ≠ 0 := by
    have : 0 < s.message.rows.countP (fun r => r.id == m) :=
      List.countP_pos_iff.mpr ⟨row, hmem, by simpa using hrid⟩
    omega
  have hmodify : modifyMessage context (fun r => r.id == m) f hid hkeys env s =
      (.ok (s.message.rows.countP (fun r => r.id == m)),
        { s with message :=
            s.message.modify (fun r => r.id == m) f hid hkeys }) :=
    modifyMessage_ok.mpr ⟨hfault, rfl, rfl⟩
  unfold modifyExisting
  rw [Exec.bind_run, hmodify]
  simp only [hcount, if_false]
  rfl

theorem modifyExisting_calm
    {context notFound : String} {m : Nat} {f : MessageRow → MessageRow}
    {hid hkeys} {s : Store} {now : Int} {row : MessageRow}
    (hrow : s.message.byRowid m = some row) :
    modifyExisting context notFound m f hid hkeys (.calm now) s =
      (.ok .unit,
        { s with message := s.message.modify (fun r => r.id == m) f hid hkeys })
    :=
  modifyExisting_found rfl hrow

/-- A row that is not stored is an error. -/
theorem modifyExisting_none
    {context notFound : String} {m : Nat} {f : MessageRow → MessageRow}
    {hid hkeys} {s : Store} {now : Int}
    (hrow : s.message.byRowid m = none) :
    modifyExisting context notFound m f hid hkeys (.calm now) s =
      (.error (.storage notFound none), s) := by
  have hnone : ∀ r ∈ s.message.rows, (r.id == m) = false := by
    intro r hr
    simpa using (s.message.byRowid_eq_none_iff _).mp hrow r hr
  have hcount : s.message.rows.countP (fun r => r.id == m) = 0 := by
    rw [List.countP_eq_zero]
    intro r hr
    simp [hnone r hr]
  have hmodify : modifyMessage context (fun r => r.id == m) f hid hkeys
      (.calm now) s = (.ok 0, s) :=
    modifyMessage_ok.mpr
      ⟨rfl, hcount, by rw [s.message.modify_eq_self _ f hid hkeys hnone]⟩
  unfold modifyExisting
  rw [Exec.bind_run, hmodify]
  rfl

/-- `update_message_status`. -/
def updateMessageStatus (messageId : Nat) (status : Int) : StoreM PUnit := do
  let now ← nowMs
  modifyExisting "update message status"
    s!"update message status failed: message.id={messageId} not found"
    messageId (fun r => { r with status := status, updatedAt := now })
    (MessageRow.rowid_status status now) (MessageRow.keys_status status now)

theorem updateMessageStatus_cases
    {messageId : Nat} {status : Int} {env : Env} {s s' : Store}
    {res : Except StoreError PUnit}
    (h : updateMessageStatus messageId status env s = (res, s')) :
    (∃ e, res = .error e ∧ s' = s) ∨
      (res = .ok .unit ∧
        s' = { s with message := s.withStatus messageId status env.now }) := by
  unfold updateMessageStatus at h
  rw [nowMs_bind] at h
  rcases modifyExisting_cases h with hfailed | ⟨hok, -, hs⟩
  · exact Or.inl hfailed
  · exact Or.inr ⟨hok, hs⟩

/-- `update_local_message_id`. -/
def updateLocalMessageId (messageId localMessageId : Nat) : StoreM PUnit := do
  let now ← nowMs
  modifyExisting "update local_message_id"
    s!"update local_message_id failed: message.id={messageId} not found"
    messageId
    (fun r => { r with localMessageId := localMessageId, updatedAt := now })
    (MessageRow.rowid_localId localMessageId now)
    (MessageRow.keys_localId localMessageId now)

/-- `update_message_content_local`. -/
def updateMessageContentLocal (messageId : Nat) (content : String) :
    StoreM PUnit := do
  let now ← nowMs
  modifyExisting "update message content local"
    s!"update message content failed: message.id={messageId} not found"
    messageId (fun r => { r with content := content, updatedAt := now })
    (fun _ => rfl) (fun _ => rfl)

/-- `get_local_message_id`. -/
def getLocalMessageId (messageId : Nat) : StoreM (Option Nat) :=
  query "get local_message_id"
    (fun s => (s.message.byRowid messageId).map (fun r => r.localMessageId))

/-- `finalize_local_attachment`: content and media state, without a command. -/
def finalizeLocalAttachment
    (messageId : Nat) (content : String) (thumbStatus : Int) :
    StoreM (Nat × Int) := do
  let now ← nowMs
  let _ ← modifyMessage "finalize local attachment"
    (fun r => r.id == messageId)
    (fun r => { r with
      content := content
      thumbStatus := thumbStatus
      mediaDownloaded := true
      updatedAt := now })
    (fun _ => rfl) (fun _ => rfl)
  let row ← queryRow "lookup finalized message channel"
    (fun s => s.message.byRowid messageId)
  pure (row.channelId, row.channelType)

end Columns

section Revoke

/-- The text that replaces the content of a revoked message. -/
def revokedContent : String := "消息已撤回"

/-- The columns of the row of a revoked message. -/
def MessageRow.tombstone (now : Int) (r : MessageRow) : MessageRow :=
  { r with
    messageType := 0
    content := revokedContent
    searchableWord := revokedContent
    updatedAt := now }

theorem MessageRow.rowid_tombstone (now : Int) (r : MessageRow) :
    Record.rowid (MessageRow.tombstone now r) = Record.rowid r := by
  rfl

theorem MessageRow.keys_tombstone (now : Int) (r : MessageRow) :
    Record.keys (MessageRow.tombstone now r) = Record.keys r := by
  rfl

/-- The revoke columns; a later version of the extra row replaces the earlier. -/
def revokeWrite (revoked : Bool) (revoker : Option Nat) (version : Int) :
    ExtraWrite where
  apply r := { r with
    revoke := revoked, revoker := revoker, extraVersion := version }

/-- The revoke columns; the version of the extra row never decreases. -/
def revokeWriteMax (revoked : Bool) (revoker : Option Nat) (version : Int) :
    ExtraWrite where
  apply r := { r with
    revoke := revoked
    revoker := revoker
    extraVersion := max r.extraVersion version }

/-- The `UPDATE` of a revoke by server id; "not revoked" updates no row. -/
def updateRevokedByServerId
    (serverMessageId : Nat) (revoked : Bool) (now : Int) : StoreM Nat :=
  if revoked then
    modifyMessage "update revoked message by server id"
      (fun r => r.serverMessageId == some serverMessageId)
      (MessageRow.tombstone now) (fun _ => rfl) (fun _ => rfl)
  else
    pure 0

/-- `set_message_revoke_by_server_message_id`. -/
def setMessageRevokeByServerMessageId
    (serverMessageId : Nat) (revoked : Bool) (revoker : Option Nat) :
    StoreM (Option StoredMessage) := do
  let now ← nowMs
  let updated ← updateRevokedByServerId serverMessageId revoked now
  if updated = 0 then
    pure none
  else do
    let row ← queryRow "query revoked message by server id"
      (fun s => s.byServerId serverMessageId)
    exec "set message revoke by server id" (fun s =>
      { s with
        messageExtra := upsertedExtra s.messageExtra row.id row.channelId
          row.channelType (revokeWrite revoked revoker now)
          (revokeWriteMax revoked revoker now) })
    getMessageById row.id

/-- `set_message_revoke`; a message that is not stored is left to a later sync. -/
def setMessageRevoke
    (messageId : Nat) (revoked : Bool) (revoker : Option Nat) :
    StoreM PUnit := do
  let found ← query "query message for revoke"
    (fun s => s.message.byRowid messageId)
  match found with
  | none => pure .unit
  | some row => do
      let now ← nowMs
      exec "set message revoke" (fun s =>
        { s with
          messageExtra := upsertedExtra s.messageExtra messageId row.channelId
            row.channelType (revokeWrite revoked revoker now)
            (revokeWrite revoked revoker now) })
      if revoked then
        modifyExisting "update revoked message row"
          s!"set message revoke failed: message.id={messageId} not found"
          messageId (MessageRow.tombstone now) (fun _ => rfl) (fun _ => rfl)
      else
        pure .unit

end Revoke

section Edit

/-- The edit columns. -/
def editWrite (content : String) (editedAt version : Int) : ExtraWrite where
  apply r := { r with
    contentEdit := some content
    editedAt := editedAt
    extraVersion := version }

/-- `edit_message`. -/
def editMessage (messageId : Nat) (content : String) (editedAt : Int) :
    StoreM PUnit := do
  let now ← nowMs
  modifyExisting "update message content"
    s!"edit message failed: message.id={messageId} not found"
    messageId (fun r => { r with content := content, updatedAt := now })
    (fun _ => rfl) (fun _ => rfl)
  let row ← queryRow "query message for edit"
    (fun s => s.message.byRowid messageId)
  exec "upsert message_extra edit" (fun s =>
    { s with
      messageExtra := upsertedExtra s.messageExtra messageId row.channelId
        row.channelType (editWrite content editedAt now)
        (editWrite content editedAt now) })

/-- The pin columns. -/
def pinWrite (isPinned : Bool) (version : Int) : ExtraWrite where
  apply r := { r with isPinned := isPinned, extraVersion := version }

/-- `set_message_pinned`. -/
def setMessagePinned (messageId : Nat) (isPinned : Bool) : StoreM PUnit := do
  let row ← queryRow "query message for pin"
    (fun s => s.message.byRowid messageId)
  let now ← nowMs
  exec "set message pinned" (fun s =>
    { s with
      messageExtra := upsertedExtra s.messageExtra messageId row.channelId
        row.channelType (pinWrite isPinned now) (pinWrite isPinned now) })

/-- The delivery columns. -/
def deliveredWrite (deliveredAt version : Int) : ExtraWrite where
  apply r := { r with
    delivered := true, deliveredAt := deliveredAt, extraVersion := version }

/-- The delivery columns, written once: a delivered row is left alone. -/
def deliveredOnce (deliveredAt version : Int) : ExtraWrite where
  apply r :=
    if r.delivered then r
    else { r with
      delivered := true, deliveredAt := deliveredAt, extraVersion := version }
  id_apply r := by
    split
    · rfl
    · rfl
  messageId_apply r := by
    split
    · rfl
    · rfl

/-- `mark_message_delivered`: only upgrades, never downgrades. -/
def markMessageDelivered (serverMessageId : Nat) (deliveredAt : Int) :
    StoreM (Option Nat) := do
  let found ← query "mark_delivered lookup"
    (fun s => s.byServerId serverMessageId)
  match found with
  | none => pure none
  | some row => do
      let now ← nowMs
      let already ← stmt "mark_delivered upsert" (fun s =>
        .ok ((s.messageExtra.lookup row.id).any (fun x => x.delivered),
          { s with
            messageExtra := upsertedExtra s.messageExtra row.id row.channelId
              row.channelType (deliveredWrite deliveredAt now)
              (deliveredOnce deliveredAt now) }))
      pure (if already then none else some row.id)

end Edit

section ContentStep

/-- The columns of a message row that say which message it is and where it stands. -/
structure MessageIdentity where
  id : Nat
  serverMessageId : Option Nat
  localMessageId : Nat
  fromUid : Nat
  channelId : Nat
  status : Int
  pts : Int
  orderSeq : Int
  deriving DecidableEq

def MessageRow.identity (r : MessageRow) : MessageIdentity where
  id := r.id
  serverMessageId := r.serverMessageId
  localMessageId := r.localMessageId
  fromUid := r.fromUid
  channelId := r.channelId
  status := r.status
  pts := r.pts
  orderSeq := r.orderSeq

/-- Nothing but contents and extras changed. -/
structure ContentStep (s s' : Store) : Prop where
  outbox : s'.outbox = s.outbox
  nextRowid : s'.message.nextRowid = s.message.nextRowid
  rows : ∀ n, (s'.message.byRowid n).map MessageRow.identity =
    (s.message.byRowid n).map MessageRow.identity

theorem ContentStep.refl (s : Store) : ContentStep s s where
  outbox := rfl
  nextRowid := rfl
  rows _ := rfl

theorem ContentStep.trans
    (s t u : Store) (h : ContentStep s t) (h' : ContentStep t u) :
    ContentStep s u where
  outbox := h'.outbox.trans h.outbox
  nextRowid := h'.nextRowid.trans h.nextRowid
  rows n := (h'.rows n).trans (h.rows n)

/-- A row after a content step was there before, with the same identity. -/
theorem ContentStep.row
    {s s' : Store} (h : ContentStep s s') {n : Nat} {row' : MessageRow}
    (hrow : s'.message.byRowid n = some row') :
    ∃ row, s.message.byRowid n = some row ∧ row.identity = row'.identity := by
  have hmap := h.rows n
  rw [hrow] at hmap
  exact Option.map_eq_some_iff.mp hmap.symm

/-- A statement over the extras alone is a content step. -/
theorem contentStep_of_messages
    {s s' : Store} (hm : s'.message = s.message) (ho : s'.outbox = s.outbox) :
    ContentStep s s' where
  outbox := ho
  nextRowid := by rw [hm]
  rows n := by rw [hm]

theorem contentStep_modifyMessage
    (context : String) (p : MessageRow → Bool) (f : MessageRow → MessageRow)
    (hid hkeys) (hf : ∀ r, (f r).identity = r.identity) :
    (modifyMessage context p f hid hkeys).Relates ContentStep := by
  refine relates_stmt ContentStep.refl ?_
  intro s n s' h
  cases h
  refine { outbox := rfl, nextRowid := rfl, rows := ?_ }
  intro n
  rw [Table.byRowid_modify, Option.map_map]
  congr 1
  funext r
  simp only [Function.comp_apply]
  split
  · exact hf r
  · rfl

theorem contentStep_modifyExisting
    (context notFound : String) (messageId : Nat)
    (f : MessageRow → MessageRow) (hid hkeys)
    (hf : ∀ r, (f r).identity = r.identity) :
    (modifyExisting context notFound messageId f hid hkeys).Relates
      ContentStep := by
  refine Exec.Relates.bind ContentStep.trans
    (contentStep_modifyMessage context _ f hid hkeys hf) ?_
  intro updated
  exact Exec.Relates.ite (Exec.relates_fail ContentStep.refl _)
    (Exec.relates_pure ContentStep.refl _)

theorem contentStep_updateMessageContentLocal
    (messageId : Nat) (content : String) :
    (updateMessageContentLocal messageId content).Relates ContentStep :=
  Exec.Relates.bind ContentStep.trans (relates_nowMs ContentStep.refl)
    (fun _ => contentStep_modifyExisting _ _ _ _ _ _ (fun _ => rfl))

theorem contentStep_finalizeLocalAttachment
    (messageId : Nat) (content : String) (thumbStatus : Int) :
    (finalizeLocalAttachment messageId content thumbStatus).Relates
      ContentStep := by
  refine Exec.Relates.bind ContentStep.trans (relates_nowMs ContentStep.refl)
    (fun now => ?_)
  refine Exec.Relates.bind ContentStep.trans
    (contentStep_modifyMessage _ _ _ _ _ (fun _ => rfl)) (fun _ => ?_)
  exact Exec.Relates.bind ContentStep.trans
    (relates_queryRow ContentStep.refl _ _)
    (fun row => Exec.relates_pure ContentStep.refl _)

theorem contentStep_setMessageRevokeByServerMessageId
    (serverMessageId : Nat) (revoked : Bool) (revoker : Option Nat) :
    (setMessageRevokeByServerMessageId serverMessageId revoked revoker).Relates
      ContentStep := by
  refine Exec.Relates.bind ContentStep.trans (relates_nowMs ContentStep.refl)
    (fun now => ?_)
  refine Exec.Relates.bind ContentStep.trans ?_ (fun updated => ?_)
  · exact Exec.Relates.ite (contentStep_modifyMessage _ _ _ _ _ (fun _ => rfl))
      (Exec.relates_pure ContentStep.refl _)
  · refine Exec.Relates.ite (Exec.relates_pure ContentStep.refl _) ?_
    refine Exec.Relates.bind ContentStep.trans
      (relates_queryRow ContentStep.refl _ _) (fun row => ?_)
    refine Exec.Relates.bind ContentStep.trans
      (relates_exec ContentStep.refl _
        (fun s => contentStep_of_messages rfl rfl)) (fun _ => ?_)
    exact relates_query ContentStep.refl _ _

theorem contentStep_setMessageRevoke
    (messageId : Nat) (revoked : Bool) (revoker : Option Nat) :
    (setMessageRevoke messageId revoked revoker).Relates ContentStep := by
  refine Exec.Relates.bind ContentStep.trans
    (relates_query ContentStep.refl _ _) (fun found => ?_)
  cases found with
  | none =>
      exact Exec.relates_pure ContentStep.refl _
  | some row =>
      refine Exec.Relates.bind ContentStep.trans
        (relates_nowMs ContentStep.refl) (fun now => ?_)
      refine Exec.Relates.bind ContentStep.trans
        (relates_exec ContentStep.refl _
          (fun s => contentStep_of_messages rfl rfl)) (fun _ => ?_)
      exact Exec.Relates.ite
        (contentStep_modifyExisting _ _ _ _ _ _ (fun _ => rfl))
        (Exec.relates_pure ContentStep.refl _)

theorem contentStep_editMessage
    (messageId : Nat) (content : String) (editedAt : Int) :
    (editMessage messageId content editedAt).Relates ContentStep := by
  refine Exec.Relates.bind ContentStep.trans (relates_nowMs ContentStep.refl)
    (fun now => ?_)
  refine Exec.Relates.bind ContentStep.trans
    (contentStep_modifyExisting _ _ _ _ _ _ (fun _ => rfl)) (fun _ => ?_)
  refine Exec.Relates.bind ContentStep.trans
    (relates_queryRow ContentStep.refl _ _) (fun row => ?_)
  exact relates_exec ContentStep.refl _
    (fun s => contentStep_of_messages rfl rfl)

theorem contentStep_setMessagePinned
    (messageId : Nat) (isPinned : Bool) :
    (setMessagePinned messageId isPinned).Relates ContentStep := by
  refine Exec.Relates.bind ContentStep.trans
    (relates_queryRow ContentStep.refl _ _) (fun row => ?_)
  refine Exec.Relates.bind ContentStep.trans (relates_nowMs ContentStep.refl)
    (fun now => ?_)
  exact relates_exec ContentStep.refl _
    (fun s => contentStep_of_messages rfl rfl)

theorem contentStep_markMessageDelivered
    (serverMessageId : Nat) (deliveredAt : Int) :
    (markMessageDelivered serverMessageId deliveredAt).Relates ContentStep := by
  refine Exec.Relates.bind ContentStep.trans
    (relates_query ContentStep.refl _ _) (fun found => ?_)
  cases found with
  | none =>
      exact Exec.relates_pure ContentStep.refl _
  | some row =>
      refine Exec.Relates.bind ContentStep.trans
        (relates_nowMs ContentStep.refl) (fun now => ?_)
      refine Exec.Relates.bind ContentStep.trans ?_
        (fun _ => Exec.relates_pure ContentStep.refl _)
      refine relates_stmt ContentStep.refl ?_
      intro s a s' h
      cases h
      exact contentStep_of_messages rfl rfl

end ContentStep

section Delete

/-- The store without a message and everything attached to it. -/
def Store.withoutMessage (s : Store) (messageId : Nat) : Store :=
  { s with
    message := s.message.deleteWhere (fun r => r.id == messageId)
    messageExtra :=
      s.messageExtra.deleteWhere (fun r => r.messageId == messageId)
    messageReaction :=
      s.messageReaction.deleteWhere (fun r => r.messageId == messageId)
    mention := s.mention.deleteWhere (fun r => r.messageId == messageId)
    reminder := s.reminder.deleteWhere (fun r => r.messageId == messageId) }

/-- The store without the messages of a channel and what is attached to them. -/
def Store.withoutChannel (s : Store) (channelId : Nat) : Store :=
  { s with
    message := s.message.deleteWhere (fun r => r.channelId == channelId)
    messageExtra :=
      s.messageExtra.deleteWhere (fun r => r.channelId == channelId)
    messageReaction :=
      s.messageReaction.deleteWhere (fun r => r.channelId == channelId)
    mention := s.mention.deleteWhere (fun r => r.channelId == channelId)
    reminder := s.reminder.deleteWhere (fun r => r.channelId == channelId) }

/-- `delete_message_local`. -/
def deleteMessageLocal (messageId : Nat) : StoreM (Option StoredMessage) := do
  let existing ← getMessageById messageId
  match existing with
  | none => pure none
  | some stored =>
      withTx "delete_message_local begin tx" "delete_message_local commit" do
        deleteMessage "delete_message_local message"
          (fun r => r.id == messageId)
        exec "delete_message_local message_extra" (fun s => { s with
          messageExtra :=
            s.messageExtra.deleteWhere (fun r => r.messageId == messageId) })
        exec "delete_message_local message_reaction" (fun s => { s with
          messageReaction :=
            s.messageReaction.deleteWhere (fun r => r.messageId == messageId) })
        exec "delete_message_local mention" (fun s => { s with
          mention := s.mention.deleteWhere (fun r => r.messageId == messageId) })
        exec "delete_message_local reminder" (fun s => { s with
          reminder :=
            s.reminder.deleteWhere (fun r => r.messageId == messageId) })
        pure (some stored)

/-- `delete_channel_local`; the channel row itself is outside the model. -/
def deleteChannelLocal (channelId : Nat) : StoreM (List Nat) := do
  let messages ← query "query channel messages" (fun s =>
    (s.message.rows.filter (fun r => r.channelId == channelId)).map
      (fun r => r.id))
  withTx "delete_channel_local begin tx" "delete_channel_local commit" do
    exec "delete_channel_local mark" id
    exec "delete_channel_local message_extra" (fun s => { s with
      messageExtra :=
        s.messageExtra.deleteWhere (fun r => r.channelId == channelId) })
    exec "delete_channel_local message_reaction" (fun s => { s with
      messageReaction :=
        s.messageReaction.deleteWhere (fun r => r.channelId == channelId) })
    exec "delete_channel_local mention" (fun s => { s with
      mention := s.mention.deleteWhere (fun r => r.channelId == channelId) })
    exec "delete_channel_local reminder" (fun s => { s with
      reminder := s.reminder.deleteWhere (fun r => r.channelId == channelId) })
    deleteMessage "delete_channel_local message"
      (fun r => r.channelId == channelId)
    pure messages

/-- A local deletion removes the message and what is attached, or nothing. -/
theorem deleteMessageLocal_cases
    {messageId : Nat} {env : Env} {s s' : Store}
    {res : Except StoreError (Option StoredMessage)}
    (h : deleteMessageLocal messageId env s = (res, s')) :
    (s' = s ∧ ∀ stored, res ≠ .ok (some stored)) ∨
      (∃ stored, res = .ok (some stored) ∧
        s.storedMessage messageId = some stored ∧
        s' = s.withoutMessage messageId) := by
  unfold deleteMessageLocal at h
  rw [Exec.bind_run] at h
  split at h
  · rename_i existing s₁ hq
    obtain ⟨-, hstored, rfl⟩ := query_ok.mp hq
    cases existing with
    | none =>
        cases h
        exact Or.inl ⟨rfl, by simp⟩
    | some stored =>
        cases res with
        | error e =>
            exact Or.inl ⟨withTx_error h, by simp⟩
        | ok v =>
            have hbody := withTx_ok h
            obtain ⟨u₁, s₁, h₁, hrest⟩ := Exec.bind_ok.mp hbody
            obtain ⟨u₂, s₂, h₂, hrest⟩ := Exec.bind_ok.mp hrest
            obtain ⟨u₃, s₃, h₃, hrest⟩ := Exec.bind_ok.mp hrest
            obtain ⟨u₄, s₄, h₄, hrest⟩ := Exec.bind_ok.mp hrest
            obtain ⟨u₅, s₅, h₅, hrest⟩ := Exec.bind_ok.mp hrest
            cases hrest
            obtain ⟨-, rfl⟩ := exec_ok.mp h₁
            obtain ⟨-, rfl⟩ := exec_ok.mp h₂
            obtain ⟨-, rfl⟩ := exec_ok.mp h₃
            obtain ⟨-, rfl⟩ := exec_ok.mp h₄
            obtain ⟨-, rfl⟩ := exec_ok.mp h₅
            exact Or.inr ⟨stored, rfl, hstored, rfl⟩
  · rename_i e s₁ hq
    cases h
    exact Or.inl ⟨(query_error hq).1, by simp⟩

/-- Deleting a channel removes its messages and what is attached, or nothing. -/
theorem deleteChannelLocal_cases
    {channelId : Nat} {env : Env} {s s' : Store}
    {res : Except StoreError (List Nat)}
    (h : deleteChannelLocal channelId env s = (res, s')) :
    (s' = s ∧ ∃ e, res = .error e) ∨
      (res = .ok ((s.message.rows.filter (fun r => r.channelId == channelId)).map
          (fun r => r.id)) ∧
        s' = s.withoutChannel channelId) := by
  unfold deleteChannelLocal at h
  rw [Exec.bind_run] at h
  split at h
  · rename_i messages s₁ hq
    obtain ⟨-, rfl, rfl⟩ := query_ok.mp hq
    cases res with
    | error e =>
        exact Or.inl ⟨withTx_error h, e, rfl⟩
    | ok v =>
        have hbody := withTx_ok h
        obtain ⟨u₀, s₀, h₀, hrest⟩ := Exec.bind_ok.mp hbody
        obtain ⟨u₁, s₁, h₁, hrest⟩ := Exec.bind_ok.mp hrest
        obtain ⟨u₂, s₂, h₂, hrest⟩ := Exec.bind_ok.mp hrest
        obtain ⟨u₃, s₃, h₃, hrest⟩ := Exec.bind_ok.mp hrest
        obtain ⟨u₄, s₄, h₄, hrest⟩ := Exec.bind_ok.mp hrest
        obtain ⟨u₅, s₅, h₅, hrest⟩ := Exec.bind_ok.mp hrest
        cases hrest
        obtain ⟨-, rfl⟩ := exec_ok.mp h₀
        obtain ⟨-, rfl⟩ := exec_ok.mp h₁
        obtain ⟨-, rfl⟩ := exec_ok.mp h₂
        obtain ⟨-, rfl⟩ := exec_ok.mp h₃
        obtain ⟨-, rfl⟩ := exec_ok.mp h₄
        obtain ⟨-, rfl⟩ := exec_ok.mp h₅
        exact Or.inr ⟨rfl, rfl⟩
  · rename_i e s₁ hq
    cases h
    exact Or.inl ⟨(query_error hq).1, e, rfl⟩

end Delete

end PrivchatSdk
