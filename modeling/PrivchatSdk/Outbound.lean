import PrivchatSdk.Lib.Run
import PrivchatSdk.Store.Attached
import PrivchatSdk.Store.Outbox

/-!
# The outbound queue as a system

The client takes store operations, in any order, and drains: it peeks due
commands and builds a send attempt for one after the other.  What follows an
attempt (an acknowledgement, a reconciliation, a noted retry, a rejection, or
nothing when the response is lost) is an operation of its own, so every
interleaving of drains with the rest is a run of this system.

The record keeps what the claims about runs speak of: the attempts made, the
messages that were queued and the messages that were deleted.
-/

namespace PrivchatSdk

open StatementExec RelTable

section Operations

/-- The operations on messages and their outbox commands. -/
inductive StoreOp where
  | createLocalMessage (input : NewMessage) (localMessageId : Nat)
  | createLocalMessageQueued
      (input : NewMessage) (localMessageId : Nat) (commandType : String)
      (payload : List UInt8) (routeKey : Option String)
  | upsertRemoteMessage
      (currentUid : Option Nat) (input : UpsertRemoteMessageInput)
  | batchUpsertRemoteMessages
      (currentUid : Option Nat) (inputs : List UpsertRemoteMessageInput)
  | outboxEnqueue
      (messageId : Nat) (commandType : String) (channelId : Nat)
      (payload : List UInt8) (routeKey : Option String)
  | finalizeLocalAttachment
      (messageId : Nat) (content : String) (thumbStatus : Int)
  | finalizeAttachmentAndEnqueue
      (messageId : Nat) (content : String) (thumbStatus : Int)
      (routeKey : String) (payload : List UInt8)
  | outboxAckSent (messageId serverMessageId : Nat) (messageSeq : Int)
  | markMessageSent (messageId serverMessageId : Nat) (messageSeq : Int)
  | outboxReconcileSent (messageId serverMessageId : Nat)
  | outboxBumpRetry (messageId : Nat) (nextAttemptAt : Int) (lastError : String)
  /-- The drain rejects with the status failed. -/
  | outboxReject (messageId : Nat)
  /-- The drain of a missing message and the explicit queue acknowledgements. -/
  | outboxDrop (messageId : Nat)
  | updateMessageStatus (messageId : Nat) (status : Int)
  | updateMessageContentLocal (messageId : Nat) (content : String)
  | setMessageRevoke (messageId : Nat) (revoked : Bool) (revoker : Option Nat)
  | setMessageRevokeByServerMessageId
      (serverMessageId : Nat) (revoked : Bool) (revoker : Option Nat)
  | editMessage (messageId : Nat) (content : String) (editedAt : Int)
  | setMessagePinned (messageId : Nat) (isPinned : Bool)
  | markMessageDelivered (serverMessageId : Nat) (deliveredAt : Int)
  | upsertMessageReaction (input : UpsertMessageReactionInput)
  | recordMention (input : MentionInput)
  | markMentionRead (messageId userId : Nat)
  | upsertReminder (input : ReminderRow)
  | deleteMessageLocal (messageId : Nat)
  | deleteChannelLocal (channelId : Nat)

/-- What a successful operation did that a later property refers to. -/
inductive OpEffect where
  | plain
  | queued (messageId : Nat)
  | deleted (messageIds : List Nat)
  deriving DecidableEq, Repr

/-- The message that a local deletion removed. -/
def deletedEffect : Option StoredMessage → OpEffect
  | none => .plain
  | some stored => .deleted [stored.messageId]

/-- Run an operation for its effect. -/
def withEffect {α : Type} (x : StoreM α) (f : α → OpEffect) : StoreM OpEffect := do
  let a ← x
  pure (f a)

/-- Run the operation. -/
def StoreOp.exec : StoreOp → StoreM OpEffect
  | .createLocalMessage input localMessageId =>
      withEffect (PrivchatSdk.createLocalMessage input localMessageId)
        (fun _ => .plain)
  | .createLocalMessageQueued input localMessageId commandType payload routeKey =>
      withEffect
        (PrivchatSdk.createLocalMessageQueued input localMessageId commandType
          payload routeKey)
        .queued
  | .upsertRemoteMessage currentUid input =>
      withEffect (upsertRemoteMessageWithResult currentUid input)
        (fun _ => .plain)
  | .batchUpsertRemoteMessages currentUid inputs =>
      withEffect (PrivchatSdk.batchUpsertRemoteMessages currentUid inputs)
        (fun _ => .plain)
  | .outboxEnqueue messageId commandType channelId payload routeKey =>
      withEffect
        (PrivchatSdk.outboxEnqueue messageId commandType channelId payload
          routeKey)
        (fun _ => .queued messageId)
  | .finalizeLocalAttachment messageId content thumbStatus =>
      withEffect
        (PrivchatSdk.finalizeLocalAttachment messageId content thumbStatus)
        (fun _ => .plain)
  | .finalizeAttachmentAndEnqueue messageId content thumbStatus routeKey payload =>
      withEffect
        (PrivchatSdk.finalizeAttachmentAndEnqueue messageId content thumbStatus
          routeKey payload)
        (fun _ => .queued messageId)
  | .outboxAckSent messageId serverMessageId messageSeq =>
      withEffect
        (PrivchatSdk.outboxAckSent messageId serverMessageId messageSeq)
        (fun _ => .plain)
  | .markMessageSent messageId serverMessageId messageSeq =>
      withEffect
        (PrivchatSdk.markMessageSent messageId serverMessageId messageSeq)
        (fun _ => .plain)
  | .outboxReconcileSent messageId serverMessageId =>
      withEffect (PrivchatSdk.outboxReconcileSent messageId serverMessageId)
        (fun _ => .plain)
  | .outboxBumpRetry messageId nextAttemptAt lastError =>
      withEffect (PrivchatSdk.outboxBumpRetry messageId nextAttemptAt lastError)
        (fun _ => .plain)
  | .outboxReject messageId =>
      withEffect (PrivchatSdk.outboxReject messageId 3) (fun _ => .plain)
  | .outboxDrop messageId =>
      withEffect (PrivchatSdk.outboxDrop messageId) (fun _ => .plain)
  | .updateMessageStatus messageId status =>
      withEffect (PrivchatSdk.updateMessageStatus messageId status)
        (fun _ => .plain)
  | .updateMessageContentLocal messageId content =>
      withEffect (PrivchatSdk.updateMessageContentLocal messageId content)
        (fun _ => .plain)
  | .setMessageRevoke messageId revoked revoker =>
      withEffect (PrivchatSdk.setMessageRevoke messageId revoked revoker)
        (fun _ => .plain)
  | .setMessageRevokeByServerMessageId serverMessageId revoked revoker =>
      withEffect
        (PrivchatSdk.setMessageRevokeByServerMessageId serverMessageId revoked
          revoker)
        (fun _ => .plain)
  | .editMessage messageId content editedAt =>
      withEffect (PrivchatSdk.editMessage messageId content editedAt)
        (fun _ => .plain)
  | .setMessagePinned messageId isPinned =>
      withEffect (PrivchatSdk.setMessagePinned messageId isPinned)
        (fun _ => .plain)
  | .markMessageDelivered serverMessageId deliveredAt =>
      withEffect (PrivchatSdk.markMessageDelivered serverMessageId deliveredAt)
        (fun _ => .plain)
  | .upsertMessageReaction input =>
      withEffect (PrivchatSdk.upsertMessageReaction input) (fun _ => .plain)
  | .recordMention input =>
      withEffect (PrivchatSdk.recordMention input) (fun _ => .plain)
  | .markMentionRead messageId userId =>
      withEffect (PrivchatSdk.markMentionRead messageId userId)
        (fun _ => .plain)
  | .upsertReminder input =>
      withEffect (PrivchatSdk.upsertReminder input) (fun _ => .plain)
  | .deleteMessageLocal messageId =>
      withEffect (PrivchatSdk.deleteMessageLocal messageId) deletedEffect
  | .deleteChannelLocal channelId =>
      withEffect (PrivchatSdk.deleteChannelLocal channelId) .deleted

/-- The operations that change contents and attached rows alone. -/
def StoreOp.contentOnly : StoreOp → Bool
  | .finalizeLocalAttachment .. => true
  | .updateMessageContentLocal .. => true
  | .setMessageRevoke .. => true
  | .setMessageRevokeByServerMessageId .. => true
  | .editMessage .. => true
  | .setMessagePinned .. => true
  | .markMessageDelivered .. => true
  | .upsertMessageReaction .. => true
  | .recordMention .. => true
  | .markMentionRead .. => true
  | .upsertReminder .. => true
  | _ => false

/-- The upserts are the operations that write what the server says. -/
def StoreOp.isUpsert : StoreOp → Bool
  | .upsertRemoteMessage .. => true
  | .batchUpsertRemoteMessages .. => true
  | _ => false

/-- What `withEffect` ran, and the effect it reports. -/
theorem withEffect_run
    {α : Type} {x : StoreM α} {f : α → OpEffect} {env : Env} {s s' : Store}
    {res : Except StoreError OpEffect}
    (h : withEffect x f env s = (res, s')) :
    ∃ res₀, x env s = (res₀, s') ∧ res = res₀.map f := by
  unfold withEffect at h
  rw [Exec.bind_run] at h
  split at h
  · rename_i a s₁ hx
    cases h
    exact ⟨.ok a, hx, rfl⟩
  · rename_i e s₁ hx
    cases h
    exact ⟨.error e, hx, rfl⟩

theorem withEffect_after
    {α : Type} (x : StoreM α) (f : α → OpEffect) (env : Env) (s : Store) :
    (withEffect x f env s).2 = x.after env s := by
  cases hrun : withEffect x f env s with
  | mk res s' =>
  obtain ⟨res₀, hx, -⟩ := withEffect_run hrun
  unfold Exec.after
  rw [hx]

theorem relates_withEffect
    {α : Type} {x : StoreM α} (f : α → OpEffect)
    (h : x.Relates ContentStep) :
    (withEffect x f).Relates ContentStep :=
  Exec.Relates.bind ContentStep.trans h
    (fun _ => Exec.relates_pure ContentStep.refl _)

/-- Such an operation keeps every message where it stands. -/
theorem contentStep_of_contentOnly
    {op : StoreOp} (h : op.contentOnly = true) :
    op.exec.Relates ContentStep := by
  have hattached {f : Store → Store} (context : String)
      (hm : ∀ s, (f s).message = s.message)
      (ho : ∀ s, (f s).outbox = s.outbox) :
      (PrivchatSdk.exec context f).Relates ContentStep :=
    relates_exec ContentStep.refl context
      (fun s => contentStep_of_messages (hm s) (ho s))
  cases op with
  | finalizeLocalAttachment =>
      exact relates_withEffect _ (contentStep_finalizeLocalAttachment _ _ _)
  | updateMessageContentLocal =>
      exact relates_withEffect _ (contentStep_updateMessageContentLocal _ _)
  | setMessageRevoke =>
      exact relates_withEffect _ (contentStep_setMessageRevoke _ _ _)
  | setMessageRevokeByServerMessageId =>
      exact relates_withEffect _
        (contentStep_setMessageRevokeByServerMessageId _ _ _)
  | editMessage =>
      exact relates_withEffect _ (contentStep_editMessage _ _ _)
  | setMessagePinned =>
      exact relates_withEffect _ (contentStep_setMessagePinned _ _)
  | markMessageDelivered =>
      exact relates_withEffect _ (contentStep_markMessageDelivered _ _)
  | upsertMessageReaction =>
      exact relates_withEffect _ (hattached _ (fun _ => rfl) (fun _ => rfl))
  | recordMention =>
      exact relates_withEffect _ (hattached _ (fun _ => rfl) (fun _ => rfl))
  | markMentionRead =>
      exact relates_withEffect _ (hattached _ (fun _ => rfl) (fun _ => rfl))
  | upsertReminder =>
      exact relates_withEffect _ (hattached _ (fun _ => rfl) (fun _ => rfl))
  | _ => cases h

end Operations

section Frame

/-- Row ids are not reused, and the rows that stay keep the column `col`. -/
structure RowsKept {α : Type} (col : MessageRow → α) (t t' : Table MessageRow) :
    Prop where
  nextRowid : t.nextRowid ≤ t'.nextRowid
  rows : ∀ n < t.nextRowid, ∀ row', t'.byRowid n = some row' →
    ∃ row, t.byRowid n = some row ∧ col row' = col row

variable {α : Type} {col : MessageRow → α}

theorem RowsKept.refl (t : Table MessageRow) : RowsKept col t t where
  nextRowid := Nat.le_refl _
  rows _ _ row' h := ⟨row', h, rfl⟩

theorem RowsKept.trans
    {t u v : Table MessageRow}
    (h : RowsKept col t u) (h' : RowsKept col u v) :
    RowsKept col t v where
  nextRowid := Nat.le_trans h.nextRowid h'.nextRowid
  rows n hn row'' hrow'' := by
    obtain ⟨row', hrow', hcol'⟩ :=
      h'.rows n (Nat.lt_of_lt_of_le hn h.nextRowid) row'' hrow''
    obtain ⟨row, hrow, hcol⟩ := h.rows n hn row' hrow'
    exact ⟨row, hrow, hcol'.trans hcol⟩

/-- A row that is gone stays gone. -/
theorem RowsKept.gone
    {t t' : Table MessageRow} (h : RowsKept col t t') {n : Nat}
    (hn : n < t.nextRowid) (hgone : t.byRowid n = none) :
    t'.byRowid n = none := by
  cases h' : t'.byRowid n with
  | none =>
      rfl
  | some row' =>
      obtain ⟨row, hrow, -⟩ := h.rows n hn row' h'
      rw [hgone] at hrow
      cases hrow

/-- Keeping a column keeps everything that is read off it. -/
theorem RowsKept.weaken
    {β : Type} {col' : MessageRow → β} {t t' : Table MessageRow}
    (h : RowsKept col t t')
    (hcol : ∀ r r', col r' = col r → col' r' = col' r) :
    RowsKept col' t t' where
  nextRowid := h.nextRowid
  rows n hn row' hrow' := by
    obtain ⟨row, hrow, heq⟩ := h.rows n hn row' hrow'
    exact ⟨row, hrow, hcol row row' heq⟩

theorem rowsKept_deleteWhere (t : Table MessageRow) (p : MessageRow → Bool) :
    RowsKept col t (t.deleteWhere p) where
  nextRowid := Nat.le_refl _
  rows n _ row' hrow' := by
    rw [Table.byRowid_deleteWhere, Option.filter_eq_some_iff] at hrow'
    exact ⟨row', hrow'.1, rfl⟩

theorem rowsKept_of_updatedRows
    {t t' : Table MessageRow} {p : MessageRow → Bool}
    {f : MessageRow → MessageRow}
    (hid : ∀ r, Record.rowid (f r) = Record.rowid r)
    (hrows : t'.rows = t.updatedRows p f)
    (hnext : t'.nextRowid = t.nextRowid)
    (hcol : ∀ r ∈ t.rows, p r = true → col (f r) = col r) :
    RowsKept col t t' where
  nextRowid := Nat.le_of_eq hnext.symm
  rows n _ row' hrow' := by
    rw [Table.byRowid_of_updatedRows hid hrows,
      Option.map_eq_some_iff] at hrow'
    obtain ⟨row, hrow, rfl⟩ := hrow'
    refine ⟨row, hrow, ?_⟩
    have hmem := ((Table.byRowid_eq_some_iff _ _ _).mp hrow).1
    split
    · rename_i hp
      exact hcol row hmem hp
    · rfl

theorem rowsKept_modify
    (t : Table MessageRow) (p : MessageRow → Bool)
    (f : MessageRow → MessageRow) (hid hkeys)
    (hcol : ∀ r, col (f r) = col r) :
    RowsKept col t (t.modify p f hid hkeys) :=
  rowsKept_of_updatedRows hid (t.rows_modify p f hid hkeys) rfl
    (fun r _ _ => hcol r)

theorem rowsKept_of_update
    {t t' : Table MessageRow} {p : MessageRow → Bool}
    {f : MessageRow → MessageRow} {hid}
    (h : t.update p f hid = some t')
    (hcol : ∀ r ∈ t.rows, p r = true → col (f r) = col r) :
    RowsKept col t t' := by
  obtain ⟨hrows, hnext⟩ := Table.rows_of_update h
  exact rowsKept_of_updatedRows hid hrows hnext hcol

theorem rowsKept_of_insert
    {t t' : Table MessageRow} {mk : Nat → MessageRow} {n : Nat} {hid}
    (h : t.insert mk hid = some (t', n)) :
    RowsKept col t t' := by
  obtain ⟨-, hrows, hnext⟩ := Table.rows_of_insert h
  refine { nextRowid := by omega, rows := ?_ }
  intro m hm row' hrow'
  rw [Table.byRowid_of_append hid hrows, if_neg (by omega)] at hrow'
  exact ⟨row', hrow', rfl⟩

theorem ContentStep.rowsKept
    {s s' : Store} (h : ContentStep s s')
    (hcol : ∀ r r' : MessageRow, r'.identity = r.identity → col r' = col r) :
    RowsKept col s.message s'.message where
  nextRowid := Nat.le_of_eq h.nextRowid.symm
  rows n _ row' hrow' := by
    obtain ⟨row, hrow, hid⟩ := h.row hrow'
    exact ⟨row, hrow, hcol row row' hid.symm⟩

/-- An upsert reuses no row id. -/
theorem rowsKept_of_upsert
    {currentUid : Option Nat} {input : UpsertRemoteMessageInput}
    {now : Int} {s : Store} {t : Table MessageRow}
    (h : UpsertedMessages currentUid input now s t) :
    RowsKept (fun _ => ()) s.message t where
  nextRowid := h.nextRowid_le
  rows n hn row' hrow' := by
    rcases h.row_cases hrow' with hold | ⟨-, row, -, -, -, hrow, -⟩ | ⟨rfl, -⟩
    · exact ⟨row', hold, rfl⟩
    · exact ⟨row, hrow, rfl⟩
    · exact absurd hn (Nat.lt_irrefl _)

end Frame

section Drain

/-- A request built for a command. -/
structure SendAttempt where
  commandId : CommandId
  messageId : Nat
  localMessageId : Nat
  deriving DecidableEq, Repr

/-- `ensure_local_message_id`; `fresh` is what the generator would return. -/
def ensureLocalMessageId (messageId fresh : Nat) : StoreM Nat := do
  let existing ← getLocalMessageId messageId
  if 0 < existing.getD 0 then
    pure (existing.getD 0)
  else do
    updateLocalMessageId messageId fresh
    pure fresh

/--
One item of a drain, up to the send: a command without its message is dropped,
otherwise the request is built.
-/
def prepareSend (command : OutboxRow) (messageId fresh : Nat) :
    StoreM (Option SendAttempt) := do
  let found ← getMessageById messageId
  match found with
  | none => do
      let _ ← (outboxDrop messageId).attempt
      pure none
  | some _ => do
      let localMessageId ← ensureLocalMessageId messageId fresh
      pure (some
        { commandId := command.commandId
          messageId := messageId
          localMessageId := localMessageId })

/-- The messages after one of them got a local id. -/
def Store.numbered
    (s : Store) (messageId localMessageId : Nat) (now : Int) :
    Table MessageRow :=
  s.message.modify (fun r => r.id == messageId)
    (fun r => { r with localMessageId := localMessageId, updatedAt := now })
    (MessageRow.rowid_localId localMessageId now)
    (MessageRow.keys_localId localMessageId now)

theorem rowsKept_numbered
    {α : Type} {col : MessageRow → α}
    (hcol : ∀ (r : MessageRow) (n : Nat) (now : Int),
      col { r with localMessageId := n, updatedAt := now } = col r)
    (s : Store) (messageId localMessageId : Nat) (now : Int) :
    RowsKept col s.message (s.numbered messageId localMessageId now) :=
  rowsKept_modify _ _ _ _ _ (fun r => hcol r localMessageId now)

/-- What becomes of one item of a drain. -/
inductive PrepareOutcome
    (command : OutboxRow) (messageId fresh : Nat) (env : Env) (s : Store) :
    Except StoreError (Option SendAttempt) → Store → Prop
  | failed (e : StoreError) :
      PrepareOutcome command messageId fresh env s (.error e) s
  | undropped (hgone : s.message.byRowid messageId = none) :
      PrepareOutcome command messageId fresh env s (.ok none) s
  | dropped (hgone : s.message.byRowid messageId = none) :
      PrepareOutcome command messageId fresh env s (.ok none)
        { s with outbox := s.withoutCommand messageId }
  | identified (row : MessageRow)
      (hrow : s.message.byRowid messageId = some row)
      (hpos : 0 < row.localMessageId) :
      PrepareOutcome command messageId fresh env s
        (.ok (some
          { commandId := command.commandId
            messageId := messageId
            localMessageId := row.localMessageId })) s
  | numbered (row : MessageRow)
      (hrow : s.message.byRowid messageId = some row)
      (hzero : row.localMessageId = 0) :
      PrepareOutcome command messageId fresh env s
        (.ok (some
          { commandId := command.commandId
            messageId := messageId
            localMessageId := fresh }))
        { s with message := s.numbered messageId fresh env.now }

/-- A row with a local id keeps it; only a row without one gets the fresh id. -/
theorem ensureLocalMessageId_ok
    {messageId fresh n : Nat} {env : Env} {s s' : Store} {row : MessageRow}
    (hrow : s.message.byRowid messageId = some row)
    (h : ensureLocalMessageId messageId fresh env s = (.ok n, s')) :
    (0 < row.localMessageId ∧ n = row.localMessageId ∧ s' = s) ∨
      (row.localMessageId = 0 ∧ n = fresh ∧
        s' = { s with message := s.numbered messageId fresh env.now }) := by
  obtain ⟨existing, s₁, hq, hrest⟩ := Exec.bind_ok.mp h
  obtain ⟨-, hexisting, rfl⟩ := query_ok.mp hq
  rw [hrow] at hexisting
  subst hexisting
  rw [Option.map_some, Option.getD_some] at hrest
  split at hrest
  · rename_i hpos
    cases hrest
    exact Or.inl ⟨hpos, rfl, rfl⟩
  · rename_i hzero
    obtain ⟨u, s₂, hupd, hrest⟩ := Exec.bind_ok.mp hrest
    cases hrest
    rcases modifyExisting_cases hupd with ⟨e, he, -⟩ | ⟨-, -, rfl⟩
    · cases he
    · exact Or.inr ⟨by omega, rfl, rfl⟩

theorem ensureLocalMessageId_error
    {messageId fresh : Nat} {env : Env} {s s' : Store} {e : StoreError}
    (h : ensureLocalMessageId messageId fresh env s = (.error e, s')) :
    s' = s := by
  rcases Exec.bind_error.mp h with hq | ⟨existing, s₁, hq, hrest⟩
  · exact (query_error hq).1
  · obtain ⟨-, -, rfl⟩ := query_ok.mp hq
    split at hrest
    · cases hrest
    · rcases Exec.bind_error.mp hrest with hupd | ⟨u, s₂, -, hp⟩
      · rcases modifyExisting_cases hupd with ⟨-, -, rfl⟩ | ⟨hres, -⟩
        · rfl
        · cases hres
      · cases hp

theorem prepareSend_outcome
    {command : OutboxRow} {messageId fresh : Nat} {env : Env} {s s' : Store}
    {res : Except StoreError (Option SendAttempt)}
    (h : prepareSend command messageId fresh env s = (res, s')) :
    PrepareOutcome command messageId fresh env s res s' := by
  unfold prepareSend at h
  rw [Exec.bind_run] at h
  split at h
  · rename_i found s₁ hq
    obtain ⟨-, hfound, rfl⟩ := query_ok.mp hq
    cases hrow : s.message.byRowid messageId with
    | none =>
        rw [Store.storedMessage, hrow] at hfound
        subst hfound
        cases hd : outboxDrop messageId env s with
        | mk resDrop s₂ =>
        have hrun : (res, s') = (.ok none, s₂) := by
          rw [← h]
          simp only [Option.map_none, Exec.bind_run, Exec.attempt, hd]
          rfl
        cases hrun
        rcases outboxDrop_cases hd with ⟨-, -, rfl⟩ | ⟨-, rfl⟩
        · exact .undropped hrow
        · exact .dropped hrow
    | some row =>
        rw [Store.storedMessage, hrow] at hfound
        subst hfound
        cases res with
        | error e =>
            rcases Exec.bind_error.mp h with he | ⟨n, s₂, -, hp⟩
            · cases ensureLocalMessageId_error he
              exact .failed e
            · cases hp
        | ok v =>
            obtain ⟨n, s₂, hn, hp⟩ := Exec.bind_ok.mp h
            cases hp
            rcases ensureLocalMessageId_ok hrow hn with
              ⟨hpos, rfl, rfl⟩ | ⟨hzero, rfl, rfl⟩
            · exact .identified row hrow hpos
            · exact .numbered row hrow hzero
  · rename_i e s₁ hq
    cases h
    cases (query_error hq).1
    exact .failed e

end Drain

section System

/-- The store, the commands a drain still holds, and the record of the run. -/
structure Client where
  store : Store
  batch : List OutboxRow
  attempts : List SendAttempt
  queued : List Nat
  deleted : List Nat

/-- A client before the first event. -/
def Client.start : Client where
  store := .empty
  batch := []
  attempts := []
  queued := []
  deleted := []

/-- What can happen to the client. -/
inductive ClientEvent where
  | op (op : StoreOp)
  | peek (commandType : String) (limit : Nat)
  | sendNext (fresh : Nat)
  | stopDrain

/-- Note what a successful operation did. -/
def Client.record (c : Client) : Except StoreError OpEffect → Client
  | .ok (.queued messageId) => { c with queued := messageId :: c.queued }
  | .ok (.deleted messageIds) => { c with deleted := messageIds ++ c.deleted }
  | _ => c

/-- Run a store operation and note its effect. -/
def Client.runOp (env : Env) (op : StoreOp) (c : Client) : Client :=
  Client.record { c with store := (op.exec env c.store).2 }
    (op.exec env c.store).1

/-- Take the next command of the drain. -/
def Client.sendNext (env : Env) (fresh : Nat) (c : Client) : Client :=
  match c.batch with
  | [] => c
  | command :: rest =>
      match command.messageId with
      | none => { c with batch := rest }
      | some messageId =>
          { c with
            store := (prepareSend command messageId fresh env c.store).2
            batch := rest
            attempts :=
              match (prepareSend command messageId fresh env c.store).1 with
              | .ok (some attempt) => attempt :: c.attempts
              | _ => c.attempts }

/-- Take one event. -/
def Client.step (c : Client) (event : Env × ClientEvent) : Client :=
  match event with
  | (env, .op op) => c.runOp env op
  | (env, .peek commandType limit) =>
      match (outboxPeek commandType limit env.now env c.store).1 with
      | .ok commands => { c with batch := commands }
      | .error _ => c
  | (env, .sendNext fresh) => c.sendNext env fresh
  | (_, .stopDrain) => { c with batch := [] }

@[simp] theorem Client.record_store
    (c : Client) (res : Except StoreError OpEffect) :
    (c.record res).store = c.store := by
  unfold Client.record
  split <;> rfl

@[simp] theorem Client.record_batch
    (c : Client) (res : Except StoreError OpEffect) :
    (c.record res).batch = c.batch := by
  unfold Client.record
  split <;> rfl

@[simp] theorem Client.record_attempts
    (c : Client) (res : Except StoreError OpEffect) :
    (c.record res).attempts = c.attempts := by
  unfold Client.record
  split <;> rfl

end System

end PrivchatSdk
