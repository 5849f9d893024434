import PrivchatSdk.ChannelDifference

/-!
# Applying the items of the queue

`apply_sync_entities` has a branch for each family of items and applies the items of a
batch one after the other, up to the first that fails.  The branches of the messages and
of what belongs to them report the timelines that they changed.  A drain applies batch
after batch, and hands on the reported events only if none failed.

Over the items of a drain the batches play no part (`Codec.applyDrainedBatches_eq`): it applies what waited
and what is new in one row.
-/

namespace PrivchatSdk

open StatementExec RelTable EventRun Receive Session
open Difference (ItemPayload readItem)

section Branches

variable (codec : Codec) (statusPayload : Json → MessageStatusSyncPayload)
variable (currentUid : Option Nat)

def timelineReasonForMessage (realtime : Bool) : String :=
  if realtime then "realtime_message" else "sync_entity"

/-- The events of a message that an upsert wrote. -/
def upsertEvents
    (bump : Bool) (entityId : String) (input : UpsertRemoteMessageInput)
    (upserted : UpsertRemoteMessageResult) : List SdkEvent :=
  if upserted.insertedNew then
    [.syncEntityChanged "message" entityId false,
      .timelineUpdated input.channelId input.channelType upserted.messageId
        (timelineReasonForMessage bump)]
  else if 0 < input.localMessageId ∨ currentUid = some input.fromUid then
    -- an echo is reported as a status, not as a change of its timeline
    [.messageSendStatusChanged upserted.messageId input.status
      (some input.serverMessageId)]
  else
    []

/-- The `message` branch. -/
def Codec.syncMessageItem
    (bump : Bool) (scope : Option String) (item : SyncEntityItem MessageSyncPayload) :
    StoreM (List SdkEvent) := do
  let now ← nowMs
  match codec.messageItemAction scope now item with
  | .skip => pure []
  | .revoke serverMessageId revoker => do
      let found ← setMessageRevokeByServerMessageId serverMessageId true revoker
      pure (found.toList.map (fun m => SdkEvent.timelineUpdated m.channelId
        m.channelType m.messageId "sync_entity_deleted") ++
        [.syncEntityChanged "message" item.entityId true])
  | .upsert input => do
      let upserted ← upsertRemoteMessageWithResult currentUid input
      pure (upsertEvents currentUid bump item.entityId input upserted)

/-- The `message_extra` branch. -/
def Codec.syncExtraItem
    (scope : Option String) (item : SyncEntityItem Json) : StoreM (List SdkEvent) :=
  let payload := itemPayload item
  let channelId := itemChannelId scope payload
  let channelType := itemChannelType scope payload
  if rawMessageId item = 0 then
    pure []
  else do
    let messageId ← resolveMessageId channelId channelType (rawMessageId item)
    applyExtraRevoke payload messageId
    codec.applyExtraEdit payload messageId
    applyExtraPin payload messageId
    pure (.syncEntityChanged "message_extra" item.entityId item.deleted ::
      if 0 < channelId then
        [.timelineUpdated channelId channelType messageId "message_extra_sync"]
      else
        [])

/-- The `message_status` branch. -/
def syncStatusItem
    (scope : Option String) (item : SyncEntityItem MessageStatusSyncPayload) :
    StoreM (List SdkEvent) :=
  let p := item.payload.getD .default
  let channel := parseChannelScope scope
  let raw := rawStatusMessageId item
  let channelType := ((((p.channelType.or p.typeField).or p.conversationType).or
    (channel.map Prod.fst)).map (fun v => if v = 0 then 1 else v)).getD 1
  let channelId := (p.channelId.or (channel.map Prod.snd)).getD 0
  let changed := SdkEvent.syncEntityChanged "message_status" item.entityId item.deleted
  if raw = 0 then
    pure []
  else do
    let messageId ← resolveStatusMessageId channelId channelType raw
    match p.status with
    | some status => do
        let _ ← (updateMessageStatus messageId status).attempt
        pure [.messageSendStatusChanged messageId status (some raw), changed]
    | none => pure [changed]

/-- The `message_reaction` branch; a reaction of an unnamed channel is skipped. -/
def Codec.syncReactionItem
    (scope : Option String) (item : SyncEntityItem Json) : StoreM (List SdkEvent) := do
  let payload := itemPayload item
  let channelId := itemChannelId scope payload
  let channelType := itemChannelType scope payload
  let messageId ← (if 0 < rawMessageId item then
      resolveMessageId channelId channelType (rawMessageId item)
    else
      pure (rawMessageId item))
  let uid := (jsonGetU64 payload ["uid", "user_id", "sender_id"]).getD 0
  let emoji := (codec.jsonGetString payload ["emoji"]).getD ""
  if messageId = 0 ∨ channelId = 0 ∨ uid = 0 ∨ emoji = "" then
    pure []
  else do
    let now ← nowMs
    upsertMessageReaction
      { channelId := channelId
        channelType := channelType
        uid := uid
        name := (codec.jsonGetString payload ["name", "nickname"]).getD ""
        emoji := emoji
        messageId := messageId
        seq := (jsonGetI64 payload ["seq", "version"]).getD (wrapI64 item.version)
        isDeleted := item.deleted ||
          (jsonGetBool payload ["deleted", "is_deleted"]).getD false
        createdAt := (jsonGetI64 payload ["created_at"]).getD now }
    pure [.syncEntityChanged "message_reaction" item.entityId item.deleted,
      .timelineUpdated channelId channelType messageId "reaction_sync"]

/-- The `mention` branch. -/
def syncMentionItem
    (scope : Option String) (item : SyncEntityItem Json) : StoreM (List SdkEvent) := do
  let payload := itemPayload item
  let channelId := itemChannelId scope payload
  applyMentionItem scope item
  if rawMessageId item = 0 ∨ channelId = 0 ∨
      (jsonGetU64 payload ["mentioned_user_id", "uid", "user_id"]).getD 0 = 0 then
    pure []
  else
    pure [.syncEntityChanged "mention" item.entityId item.deleted,
      .timelineUpdated channelId (itemChannelType scope payload) (rawMessageId item)
        "mention_sync"]

/-- The `reminder` branch. -/
def Codec.syncReminderItem
    (scope : Option String) (item : SyncEntityItem Json) : StoreM (List SdkEvent) := do
  codec.applyReminderItem scope item
  if itemReminderId item = 0 then
    pure []
  else
    pure [.syncEntityChanged "reminder" item.entityId item.deleted]

/--
`apply_sync_entities` for one item.  The families below write other tables and report no
timeline: of the read cursors and the unread counts no failure is reported either.
-/
def Codec.syncEntity (bump : Bool) (e : Entry ItemPayload) : StoreM (List SdkEvent) :=
  if e.entityType = "message" then
    codec.syncMessageItem currentUid bump e.scope (readItem ItemPayload.asMessage e.item)
  else if e.entityType ∈ ["message_extra", "message_ext"] then
    codec.syncExtraItem e.scope (readItem ItemPayload.asValue e.item)
  else if e.entityType ∈ ["message_reaction", "reaction"] then
    codec.syncReactionItem e.scope (readItem ItemPayload.asValue e.item)
  else if e.entityType ∈ ["mention", "message_mention"] then
    syncMentionItem e.scope (readItem ItemPayload.asValue e.item)
  else if e.entityType ∈ ["reminder", "message_reminder"] then
    codec.syncReminderItem e.scope (readItem ItemPayload.asValue e.item)
  else if e.entityType ∈ ["message_status", "message_read_status"] then
    syncStatusItem e.scope
      (statusItem statusPayload (readItem ItemPayload.asValue e.item))
  else if e.entityType ∈
      ["friend", "user_block", "blacklist", "user_mute", "user", "group", "group_member",
        "channel", "channel_member", "channel_extra", "channel_ext"] then do
    exec ("apply " ++ e.entityType) (fun s => s)
    pure []
  else
    pure []

/-- The message branch writes as `applyMessageItem` does. -/
theorem Codec.applyMessageItem_eq
    (bump : Bool) (scope : Option String) (item : SyncEntityItem MessageSyncPayload) :
    codec.applyMessageItem currentUid scope item =
      (do
        let _ ← codec.syncMessageItem currentUid bump scope item
        pure .unit) := by
  unfold Codec.applyMessageItem Codec.syncMessageItem
  rw [Exec.bind_assoc]
  congr 1
  funext now
  cases codec.messageItemAction scope now item with
  | skip =>
      rfl
  | revoke serverMessageId revoker =>
      simp only [Exec.bind_assoc]
      rfl
  | upsert input =>
      simp only [Exec.bind_assoc]
      rfl

end Branches

section Drain

variable (codec : Codec) (statusPayload : Json → MessageStatusSyncPayload)
variable (currentUid : Option Nat) (bump : Bool)

/-- The loop over items, each with the clock and the failures that it meets. -/
def Codec.applySyncEntries :
    List (Env × Entry ItemPayload) → Store → Except StoreError (List SdkEvent) × Store
  | [], s => (.ok [], s)
  | turn :: turns, s =>
      match codec.syncEntity statusPayload currentUid bump turn.2 turn.1 s with
      | (.error e, s') => (.error e, s')
      | (.ok events, s') =>
          match Codec.applySyncEntries turns s' with
          | (.error e, s'') => (.error e, s'')
          | (.ok later, s'') => (.ok (events ++ later), s'')

/-- The turns of items, in the surroundings that come. -/
def turnsOf (envs : Nat → Env) (entries : List (Entry ItemPayload)) :
    List (Env × Entry ItemPayload) :=
  entries.mapIdx (fun i e => (envs i, e))

/-- The loop over the drained batches; a failed one goes back to the front. -/
def Codec.applyDrainedBatches :
    (Nat → Env) → ReceivePipeline ItemPayload → List (SyncBatch ItemPayload) → Store →
      Except StoreError (Nat × List SdkEvent) × ReceivePipeline ItemPayload × Store
  | _, p, [], s => (.ok (0, []), p, s)
  | envs, p, batch :: batches, s =>
      match codec.applySyncEntries statusPayload currentUid bump
          (turnsOf envs batch.entries) s with
      | (.error e, s') => (.error e, p.requeueFront batch, s')
      | (.ok events, s') =>
          match Codec.applyDrainedBatches
              (fun i => envs (i + batch.items.length)) p batches s' with
          | (.error e, rest) => (.error e, rest)
          | (.ok (applied, later), rest) =>
              (.ok (batch.items.length + applied, events ++ later), rest)

/-- The drain of `enqueue_and_apply_sync_items` and of `sync_entities`. -/
def Codec.drainBatches
    (envs : Nat → Env) (p : ReceivePipeline ItemPayload) (s : Store) :
    Except StoreError (Nat × List SdkEvent) × ReceivePipeline ItemPayload × Store :=
  let drained := Receive.drainBatches p
  codec.applyDrainedBatches statusPayload currentUid bump envs drained.2 drained.1 s

/-- `enqueue_and_apply_sync_items`, with the events that it reports. -/
def Codec.enqueueAndApplySyncItems
    (envs : Nat → Env) (entityType : String) (scope : Option String)
    (items : List (SyncEntityItem ItemPayload)) (p : ReceivePipeline ItemPayload)
    (s : Store) :
    Except StoreError (Nat × List SdkEvent) × ReceivePipeline ItemPayload × Store :=
  codec.drainBatches statusPayload currentUid bump envs
    (p.enqueue entityType scope items).2 s

/-- The store behind a turn, and whether the turn did not fail. -/
def Codec.afterTurn (s : Store) (turn : Env × Entry ItemPayload) : Store :=
  (codec.syncEntity statusPayload currentUid bump turn.2).after turn.1 s

def Codec.Applies (s : Store) (turn : Env × Entry ItemPayload) : Prop :=
  (codec.syncEntity statusPayload currentUid bump turn.2 turn.1 s).1.isOk = true

instance (s : Store) (turn : Env × Entry ItemPayload) :
    Decidable (codec.Applies statusPayload currentUid bump s turn) :=
  inferInstanceAs (Decidable (_ = true))

/-- The items whose turns did not fail, up to the first that did. -/
def Codec.appliedTurns :
    List (Env × Entry ItemPayload) → Store → List (Entry ItemPayload)
  | [], _ => []
  | turn :: turns, s =>
      match codec.syncEntity statusPayload currentUid bump turn.2 turn.1 s with
      | (.error _, _) => []
      | (.ok _, s') => turn.2 :: Codec.appliedTurns turns s'

variable {codec : Codec} {statusPayload : Json → MessageStatusSyncPayload}
variable {currentUid : Option Nat} {bump : Bool}

theorem turnsOf_append (envs : Nat → Env) (xs ys : List (Entry ItemPayload)) :
    turnsOf envs (xs ++ ys) =
      turnsOf envs xs ++ turnsOf (fun i => envs (i + xs.length)) ys := by
  unfold turnsOf
  exact List.mapIdx_append

theorem entries_turnsOf (envs : Nat → Env) (entries : List (Entry ItemPayload)) :
    (turnsOf envs entries).map Prod.snd = entries := by
  induction entries generalizing envs with
  | nil =>
      rfl
  | cons e entries ih =>
      unfold turnsOf at ih ⊢
      rw [List.mapIdx_cons, List.map_cons, ih (fun i => envs (i + 1))]

theorem applySyncEntries_cons
    (turn : Env × Entry ItemPayload) (turns : List (Env × Entry ItemPayload)) (s : Store) :
    codec.applySyncEntries statusPayload currentUid bump (turn :: turns) s =
      match codec.syncEntity statusPayload currentUid bump turn.2 turn.1 s with
      | (.error e, s') => (.error e, s')
      | (.ok events, s') =>
          match codec.applySyncEntries statusPayload currentUid bump turns s' with
          | (.error e, s'') => (.error e, s'')
          | (.ok later, s'') => (.ok (events ++ later), s'') := by
  rfl

theorem applySyncEntries_append (turns later : List (Env × Entry ItemPayload)) (s : Store) :
    codec.applySyncEntries statusPayload currentUid bump (turns ++ later) s =
      match codec.applySyncEntries statusPayload currentUid bump turns s with
      | (.error e, s') => (.error e, s')
      | (.ok events, s') =>
          match codec.applySyncEntries statusPayload currentUid bump later s' with
          | (.error e, s'') => (.error e, s'')
          | (.ok more, s'') => (.ok (events ++ more), s'') := by
  induction turns generalizing s with
  | nil =>
      rw [List.nil_append, Codec.applySyncEntries]
      dsimp only
      rcases codec.applySyncEntries statusPayload currentUid bump later s with ⟨_ | _, _⟩
      · rfl
      · rfl
  | cons turn turns ih =>
      rw [List.cons_append, applySyncEntries_cons, applySyncEntries_cons turn turns]
      rcases codec.syncEntity statusPayload currentUid bump turn.2 turn.1 s with
        ⟨_ | events, s'⟩
      · rfl
      · dsimp only
        rw [ih]
        rcases codec.applySyncEntries statusPayload currentUid bump turns s' with
          ⟨_ | first, s''⟩
        · rfl
        · dsimp only
          rcases codec.applySyncEntries statusPayload currentUid bump later s'' with
            ⟨_ | more, s₃⟩
          · rfl
          · simp only [List.append_assoc]

/-- Over the drained items the batches play no part. -/
theorem applyDrainedBatches_eq
    (envs : Nat → Env) (p : ReceivePipeline ItemPayload)
    (batches : List (SyncBatch ItemPayload)) (s : Store) :
    ((codec.applyDrainedBatches statusPayload currentUid bump envs p batches s).1.map
        Prod.snd,
      (codec.applyDrainedBatches statusPayload currentUid bump envs p batches s).2.2) =
    codec.applySyncEntries statusPayload currentUid bump (turnsOf envs (entriesOf batches))
      s := by
  induction batches generalizing envs s with
  | nil =>
      rfl
  | cons batch batches ih =>
      have hlength : batch.entries.length = batch.items.length := List.length_map _
      rw [show entriesOf (batch :: batches) = batch.entries ++ entriesOf batches from rfl,
        turnsOf_append, applySyncEntries_append, hlength]
      unfold Codec.applyDrainedBatches
      rcases codec.applySyncEntries statusPayload currentUid bump
        (turnsOf envs batch.entries) s with ⟨_ | events, s'⟩
      · rfl
      · dsimp only
        rw [← ih]
        rcases codec.applyDrainedBatches statusPayload currentUid bump
          (fun i => envs (i + batch.items.length)) p batches s' with
          ⟨_ | ⟨applied, later⟩, p', s''⟩
        · rfl
        · rfl

/-- A drain that ends well leaves nothing in the queue. -/
theorem applyDrainedBatches_pipeline
    {envs : Nat → Env} {p p' : ReceivePipeline ItemPayload}
    {batches : List (SyncBatch ItemPayload)} {s s' : Store} {r : Nat × List SdkEvent}
    (h : codec.applyDrainedBatches statusPayload currentUid bump envs p batches s =
      (.ok r, p', s')) : p' = p := by
  induction batches generalizing envs s r with
  | nil =>
      cases h
      rfl
  | cons batch batches ih =>
      unfold Codec.applyDrainedBatches at h
      split at h
      · cases h
      · split at h
        · cases h
        · rename_i hrest
          cases h
          exact ih hrest

/-- The turns of a drain: what waited, and then what is new. -/
def drainTurns
    (envs : Nat → Env) (entityType : String) (scope : Option String)
    (items : List (SyncEntityItem ItemPayload)) (p : ReceivePipeline ItemPayload) :
    List (Env × Entry ItemPayload) :=
  turnsOf envs (p.waiting ++ acceptedEntries p entityType scope items)

theorem drainBatches_turns
    (envs : Nat → Env) (p : ReceivePipeline ItemPayload) (s : Store) :
    ((codec.drainBatches statusPayload currentUid bump envs p s).1.map Prod.snd,
      (codec.drainBatches statusPayload currentUid bump envs p s).2.2) =
    codec.applySyncEntries statusPayload currentUid bump (turnsOf envs p.waiting) s := by
  unfold Codec.drainBatches
  rw [Receive.drainBatches_eq]
  exact applyDrainedBatches_eq envs _ p.queue s

theorem enqueueAndApplySyncItems_turns
    (envs : Nat → Env) (entityType : String) (scope : Option String)
    (items : List (SyncEntityItem ItemPayload)) (p : ReceivePipeline ItemPayload)
    (s : Store) :
    ((codec.enqueueAndApplySyncItems statusPayload currentUid bump envs entityType scope
        items p s).1.map Prod.snd,
      (codec.enqueueAndApplySyncItems statusPayload currentUid bump envs entityType scope
        items p s).2.2) =
    codec.applySyncEntries statusPayload currentUid bump
      (drainTurns envs entityType scope items p) s := by
  unfold Codec.enqueueAndApplySyncItems drainTurns
  rw [drainBatches_turns, enqueue_waiting]

theorem enqueueAndApplySyncItems_pipeline
    {envs : Nat → Env} {entityType : String} {scope : Option String}
    {items : List (SyncEntityItem ItemPayload)} {p p' : ReceivePipeline ItemPayload}
    {s s' : Store} {r : Nat × List SdkEvent}
    (h : codec.enqueueAndApplySyncItems statusPayload currentUid bump envs entityType scope
      items p s = (.ok r, p', s')) : p'.queue = [] := by
  unfold Codec.enqueueAndApplySyncItems Codec.drainBatches at h
  rw [Receive.drainBatches_eq] at h
  rw [applyDrainedBatches_pipeline h]

/-- A loop ends well exactly if no turn fails, and then every turn had its effect. -/
theorem applySyncEntries_iff (turns : List (Env × Entry ItemPayload)) (s : Store) :
    ((codec.applySyncEntries statusPayload currentUid bump turns s).1.isOk = true ↔
      Guarded (codec.afterTurn statusPayload currentUid bump)
        (codec.Applies statusPayload currentUid bump) s turns) ∧
    ((codec.applySyncEntries statusPayload currentUid bump turns s).1.isOk = true →
      (codec.applySyncEntries statusPayload currentUid bump turns s).2 =
        run (codec.afterTurn statusPayload currentUid bump) s turns) := by
  induction turns generalizing s with
  | nil =>
      exact ⟨iff_of_true rfl trivial, fun _ => rfl⟩
  | cons turn turns ih =>
      rw [guarded_cons, run_cons, applySyncEntries_cons]
      unfold Codec.Applies Codec.afterTurn Exec.after
      rcases hrun : codec.syncEntity statusPayload currentUid bump turn.2 turn.1 s with
        ⟨_ | events, s'⟩
      · refine ⟨iff_of_false nofun (fun h => ?_), nofun⟩
        cases h.1
      · dsimp only
        obtain ⟨hiff, hstore⟩ := ih s'
        rcases hrest : codec.applySyncEntries statusPayload currentUid bump turns s' with
          ⟨_ | later, s''⟩
        · rw [hrest] at hiff
          refine ⟨iff_of_false nofun (fun h => ?_), nofun⟩
          cases hiff.mpr h.2
        · rw [hrest] at hiff hstore
          exact ⟨iff_of_true rfl ⟨rfl, hiff.mp rfl⟩, fun _ => hstore rfl⟩

/-- The turns that were applied are the first ones, and all exactly if none failed. -/
theorem appliedTurns_iff (turns : List (Env × Entry ItemPayload)) (s : Store) :
    codec.appliedTurns statusPayload currentUid bump turns s <+: turns.map Prod.snd ∧
    (codec.appliedTurns statusPayload currentUid bump turns s = turns.map Prod.snd ↔
      Guarded (codec.afterTurn statusPayload currentUid bump)
        (codec.Applies statusPayload currentUid bump) s turns) := by
  induction turns generalizing s with
  | nil =>
      exact ⟨List.prefix_refl _, iff_of_true rfl trivial⟩
  | cons turn turns ih =>
      rw [guarded_cons, List.map_cons, Codec.appliedTurns]
      unfold Codec.Applies Codec.afterTurn Exec.after
      rcases hrun : codec.syncEntity statusPayload currentUid bump turn.2 turn.1 s with
        ⟨_ | events, s'⟩
      · refine ⟨List.nil_prefix, iff_of_false nofun (fun h => ?_)⟩
        cases h.1
      · obtain ⟨hbegin, hiff⟩ := ih s'
        refine ⟨List.cons_prefix_cons.mpr ⟨rfl, hbegin⟩, ?_⟩
        rw [List.cons.injEq, eq_self_iff_true, true_and]
        exact hiff.trans (and_iff_right rfl).symm

/-- A read cursor is taken without a failure. -/
theorem applies_readCursor
    (s : Store) {turn : Env × Entry ItemPayload}
    (hturn : turn.2.entityType = "channel_read_cursor") :
    codec.Applies statusPayload currentUid bump s turn := by
  unfold Codec.Applies Codec.syncEntity
  rw [hturn]
  rfl

end Drain

end PrivchatSdk
