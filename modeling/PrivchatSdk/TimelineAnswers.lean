import PrivchatSdk.LegacyQueue
import PrivchatSdk.Lib.Run
import PrivchatSdk.SessionWork
import PrivchatSdk.TimelineItems

/-!
# What a timeline query answers

`query_timeline_snapshot` answers from the cache or from the store; the uncached
answer is `Store.timelinePage`.  The commands of the session write to the store and
invalidate channels (`TimelineSession.command`); which channels a command can change
without invalidating them is `TimelineCommand.stale`.

An entry in sync is a beginning of its timeline (`InSync`).  A command keeps that if
no stale channel is cached, and a page that is read keeps it if the budget of the
channel cuts the page at its end (`fitsBudget`).  An entry in sync answers a query
rightly exactly if it reaches far enough (`Reaches`).
-/

namespace PrivchatSdk

open StatementExec RelTable EventRun Receive Session
open Difference (ItemPayload)

section Model

/-- The answer that `list_messages` on the store gives to a query. -/
def Store.timelinePage (s : Store) (key : ChannelCacheKey) (limit offset : Nat) :
    List StoredMessage × Bool :=
  ((s.listMessages key (max limit 1 + 1) offset).take (max limit 1),
    decide (max limit 1 < (s.listMessages key (max limit 1 + 1) offset).length))

inductive ThumbnailDownloadOutcome where
  | ready
  | confirmedAbsent
  | failed
  deriving DecidableEq, Repr

def ThumbnailDownloadOutcome.thumbStatus : ThumbnailDownloadOutcome → Int
  | .ready => 1
  | .confirmedAbsent => 3
  | .failed => 2

/-- `apply_thumbnail_download_outcome`, without the event it reports. -/
def applyThumbnailDownloadOutcome
    (ownerMatches : Bool) (messageId : Nat) (outcome : ThumbnailDownloadOutcome) :
    StoreM Bool :=
  if ownerMatches then do
    let updated ← Exec.attempt (updateThumbStatus messageId outcome.thumbStatus)
    match updated with
    | .ok rows => pure (rows == 1)
    | .error _ => pure false
  else
    pure false

/--
The surroundings of a drain: what each of its items meets, and after how many of them the
call is dropped, if it is.  The item at which it is dropped may be applied in part, which
is one that fails where it was cut off.
-/
structure ItemDrain where
  envs : Nat → Env
  droppedAfter : Option Nat

/-- The commands and the other steps of a session that write messages. -/
inductive TimelineCommand where
  /-- Also `CreateLocalAttachmentPlaceholder`. -/
  | createLocalMessage (input : NewMessage) (localMessageId : Nat)
  | createLocalMessageQueued (input : NewMessage) (localMessageId : Nat)
      (commandType : String) (payload : List UInt8) (routeKey : Option String)
  | finalizeAttachmentAndEnqueue (messageId : Nat) (content : String)
      (thumbStatus : Int) (routeKey : String) (payload : List UInt8)
  | finalizeLocalAttachment (messageId : Nat) (content : String) (thumbStatus : Int)
  | markMessageSent (messageId serverMessageId : Nat) (messageSeq : Int)
  | updateMessageStatus (messageId : Nat) (status : Int)
  | setMessageRevoke (messageId : Nat) (revoked : Bool) (revoker : Option Nat)
  | editMessage (messageId : Nat) (content : String) (editedAt : Int)
  | setMessagePinned (messageId : Nat) (isPinned : Bool)
  | deleteMessageLocal (messageId : Nat)
  | deleteChannelLocal (channelId : Nat)
  | updateThumbStatus (messageId : Nat) (thumbStatus : Int)
  | completeThumbnailDownload (ownerMatches : Bool) (messageId : Nat)
      (outcome : ThumbnailDownloadOutcome)
  | updateMediaDownloaded (messageId : Nat) (downloaded : Bool)
  /-- `EnqueueOutboundMessage` and `EnqueueOutboundAttachment`. -/
  | enqueueOutbound (messageId : Nat) (commandType : String)
      (payload : List UInt8) (routeKey : Option String)
  /-- What the drain of the outbox writes. -/
  | outboxAckSent (messageId serverMessageId : Nat) (messageSeq : Int)
  | outboxReconcileSent (messageId serverMessageId : Nat)
  | outboxReject (messageId : Nat) (status : Int)
  | updateMessageContentLocal (messageId : Nat) (content : String)
  | updateLocalMessageId (messageId localMessageId : Nat)
  /-- An entry of an old queue, as `ensure_user_storage` moves it. -/
  | drainItem (commandType : String) (c : LegacyCommand)
  /-- A delivery receipt. -/
  | markMessageDelivered (serverMessageId : Nat) (deliveredAt : Int)
  /-- A push, an item of a channel difference or a mutation that was put off. -/
  | enqueueAndApplySyncItems (entityType : String) (scope : Option String)
      (items : List (SyncEntityItem ItemPayload)) (bump : Bool) (drain : ItemDrain)
  /-- A pull of a family; saving its cursor may fail. -/
  | syncEntities (pull : SyncPull ItemPayload) (drain : ItemDrain) (cursorSaved : Bool)
  | fetchChannelHistory (answer : Except StoreError (List MessageHistoryItem))
      (channelId : Nat) (channelType : Int)
  | fetchMessagesAround (server : AroundServer) (channelId : Nat) (channelType : Int)
      (messageId : Nat) (beforeLimit afterLimit : Option Nat)
  | repairMessageProjection (server : AroundServer) (repair : RepairKey)
  /-- A page of a hydrated channel, or one whose fetch is dropped while it is stored. -/
  | hydrateChannel (items : List MessageHistoryItem) (channelType : Int)
  /-- A message that the bootstrap of the session brings. -/
  | hydrateMessage (item : MessageHistoryItem) (channelType : Int)

/-- The database, the pipeline and the memory of a session. -/
structure TimelineSession where
  store : Store
  receivePipeline : ReceivePipeline ItemPayload
  memory : Memory

/-- A session that has nothing in its memory. -/
def TimelineSession.fresh
    (s : Store) (p : ReceivePipeline ItemPayload) : TimelineSession where
  store := s
  receivePipeline := p
  memory := Memory.fresh

/-- The channel that a command reads of its message before it writes. -/
def Store.loadedKey (s : Store) (env : Env) (messageId : Nat) :
    Option ChannelCacheKey :=
  match (getMessageById messageId env s).1 with
  | .ok (some m) => some m.channelKey
  | _ => none

/-- Write, and invalidate a channel if the write succeeded. -/
def TimelineSession.perform
    {α : Type} (x : TimelineSession) (env : Env) (op : StoreM α)
    (invalidates : α → Option ChannelCacheKey) : TimelineSession :=
  match op env x.store with
  | (.ok a, s) =>
      { x with
        store := s
        memory := (invalidates a).elim x.memory x.memory.evictChannelCache }
  | (.error _, s) => { x with store := s }

variable (codec : Codec) (statusPayload : Json → MessageStatusSyncPayload)
variable (currentUid : Option Nat)

/--
Drain the pipeline.  The events are handed on if no item fails; a call that is dropped
has taken the items out of the queue.
-/
def TimelineSession.drain
    (x : TimelineSession) (bump : Bool) (d : ItemDrain) :
    Option (List SdkEvent) × TimelineSession :=
  match d.droppedAfter with
  | none =>
      let (res, p, s) := codec.drainBatches statusPayload currentUid bump d.envs
        x.receivePipeline x.store
      (res.toOption.map Prod.snd, { x with store := s, receivePipeline := p })
  | some n =>
      (none,
        { x with
          store := (codec.applySyncEntries statusPayload currentUid bump
            ((turnsOf d.envs x.receivePipeline.waiting).take n) x.store).2
          receivePipeline := (drainBatches x.receivePipeline).2 })

/-- `enqueue_and_apply_sync_items` in a session. -/
def TimelineSession.enqueueAndApplySyncItems
    (x : TimelineSession) (entityType : String) (scope : Option String)
    (items : List (SyncEntityItem ItemPayload)) (bump : Bool) (d : ItemDrain) :
    TimelineSession :=
  let (stats, p) := x.receivePipeline.enqueue entityType scope items
  let x : TimelineSession :=
    { x with
      receivePipeline := p
      memory := x.memory.startSync.countSync stats.queuedItems stats.droppedDuplicates }
  match x.drain codec statusPayload currentUid bump d with
  | (some events, x) => { x with memory := x.memory.finishSync events }
  | (none, x) => x

/-- `sync_entities` in a session. -/
def TimelineSession.syncEntities
    (x : TimelineSession) (pull : SyncPull ItemPayload) (d : ItemDrain)
    (cursorSaved : Bool) : TimelineSession :=
  let (queued, droppedDuplicates, p) :=
    enqueueReplies pull.entityType pull.scope x.receivePipeline 0 0 pull.replies
  let x : TimelineSession :=
    { x with receivePipeline := p, memory := x.memory.startSync }
  if pull.complete then
    match x.drain codec statusPayload currentUid false d with
    | (some events, x) =>
        if cursorSaved then
          { x with
            memory := (x.memory.countSync queued droppedDuplicates).finishSync events }
        else
          x
    | (none, x) => x
  else
    x

def TimelineSession.command (x : TimelineSession) (env : Env) :
    TimelineCommand → TimelineSession
  | .createLocalMessage input localMessageId =>
      x.perform env (PrivchatSdk.createLocalMessage input localMessageId)
        (fun _ => some input.channelKey)
  | .createLocalMessageQueued input localMessageId commandType payload routeKey =>
      x.perform env (PrivchatSdk.createLocalMessageQueued input localMessageId
        commandType payload routeKey) (fun _ => some input.channelKey)
  | .finalizeAttachmentAndEnqueue messageId content thumbStatus routeKey payload =>
      x.perform env (PrivchatSdk.finalizeAttachmentAndEnqueue messageId content
        thumbStatus routeKey payload)
        (fun c => some { channelId := c.1, channelType := c.2 })
  | .finalizeLocalAttachment messageId content thumbStatus =>
      x.perform env
        (PrivchatSdk.finalizeLocalAttachment messageId content thumbStatus)
        (fun c => some { channelId := c.1, channelType := c.2 })
  | .markMessageSent messageId serverMessageId messageSeq =>
      x.perform env
        (PrivchatSdk.markMessageSent messageId serverMessageId messageSeq)
        (fun _ => x.store.loadedKey env messageId)
  | .updateMessageStatus messageId status =>
      x.perform env (PrivchatSdk.updateMessageStatus messageId status)
        (fun _ => x.store.loadedKey env messageId)
  | .setMessageRevoke messageId revoked revoker =>
      x.perform env (PrivchatSdk.setMessageRevoke messageId revoked revoker)
        (fun _ => x.store.loadedKey env messageId)
  | .editMessage messageId content editedAt =>
      x.perform env (PrivchatSdk.editMessage messageId content editedAt)
        (fun _ => x.store.loadedKey env messageId)
  | .setMessagePinned messageId isPinned =>
      x.perform env (PrivchatSdk.setMessagePinned messageId isPinned)
        (fun _ => x.store.loadedKey env messageId)
  | .deleteMessageLocal messageId =>
      x.perform env (PrivchatSdk.deleteMessageLocal messageId)
        (fun stored => stored.map StoredMessage.channelKey)
  | .deleteChannelLocal channelId =>
      x.perform env (PrivchatSdk.deleteChannelLocal channelId) (fun _ => none)
  | .updateThumbStatus messageId thumbStatus =>
      x.perform env (PrivchatSdk.updateThumbStatus messageId thumbStatus)
        (fun _ => none)
  | .completeThumbnailDownload ownerMatches messageId outcome =>
      x.perform env (applyThumbnailDownloadOutcome ownerMatches messageId outcome)
        (fun _ => none)
  | .updateMediaDownloaded messageId downloaded =>
      x.perform env (PrivchatSdk.updateMediaDownloaded messageId downloaded)
        (fun _ => none)
  | .enqueueOutbound messageId commandType payload routeKey =>
      x.perform env (outboxEnqueue messageId commandType 0 payload routeKey)
        (fun _ => none)
  | .outboxAckSent messageId serverMessageId messageSeq =>
      x.perform env
        (PrivchatSdk.outboxAckSent messageId serverMessageId messageSeq)
        (fun _ => none)
  | .outboxReconcileSent messageId serverMessageId =>
      x.perform env (PrivchatSdk.outboxReconcileSent messageId serverMessageId)
        (fun _ => none)
  | .outboxReject messageId status =>
      x.perform env (PrivchatSdk.outboxReject messageId status) (fun _ => none)
  | .updateMessageContentLocal messageId content =>
      x.perform env (PrivchatSdk.updateMessageContentLocal messageId content)
        (fun _ => none)
  | .updateLocalMessageId messageId localMessageId =>
      x.perform env (PrivchatSdk.updateLocalMessageId messageId localMessageId)
        (fun _ => none)
  | .drainItem commandType c =>
      x.perform env (PrivchatSdk.drainItem commandType c) (fun _ => none)
  | .markMessageDelivered serverMessageId deliveredAt =>
      x.perform env (PrivchatSdk.markMessageDelivered serverMessageId deliveredAt)
        (fun _ => none)
  | .enqueueAndApplySyncItems entityType scope items bump d =>
      x.enqueueAndApplySyncItems codec statusPayload currentUid entityType scope items
        bump d
  | .syncEntities pull d cursorSaved =>
      x.syncEntities codec statusPayload currentUid pull d cursorSaved
  | .fetchChannelHistory answer channelId channelType =>
      x.perform env (codec.fetchAndStoreChannelHistory currentUid answer channelType)
        (fun _ => some { channelId := channelId, channelType := channelType })
  | .fetchMessagesAround server channelId channelType messageId beforeLimit afterLimit =>
      x.perform env (codec.fetchAndStoreMessagesAround currentUid server channelId
        channelType messageId beforeLimit afterLimit)
        (fun _ => some { channelId := channelId, channelType := channelType })
  | .repairMessageProjection server repair =>
      x.perform env (codec.repairMessageProjection currentUid server repair)
        (fun found => found.map (fun _ =>
          { channelId := repair.channelId, channelType := repair.channelType }))
  | .hydrateChannel items channelType =>
      x.perform env (codec.storeHistoryItems currentUid items
        (normalizedChannelType channelType)) (fun _ => none)
  | .hydrateMessage item channelType =>
      x.perform env (upsertRemoteMessageWithResult currentUid
        (codec.historyItemToUpsertInput item channelType)) (fun _ => none)

inductive TimelineEvent where
  | command (env : Env) (c : TimelineCommand)
  | query (key : ChannelCacheKey) (limit offset : Nat)

variable (cacheConfig : Option MessageCachePolicyConfig)

/-- `query_timeline_snapshot` in a session. -/
def TimelineSession.query
    (x : TimelineSession) (key : ChannelCacheKey) (limit offset : Nat) :
    TimelineSnapshot × Memory :=
  x.memory.queryTimelineSnapshot cacheConfig x.store.listMessages key limit offset

def TimelineSession.step (x : TimelineSession) : TimelineEvent → TimelineSession
  | .command env c => x.command codec statusPayload currentUid env c
  | .query key limit offset =>
      { x with memory := (x.query cacheConfig key limit offset).2 }

end Model

section Conditions

/-- A row of the channel has the server id, and is not the message. -/
def Store.holdsOther
    (s : Store) (key : ChannelCacheKey) (messageId serverMessageId : Nat) : Prop :=
  ∃ r ∈ s.message.rows, r.serverMessageId = some serverMessageId ∧
    r.inChannel key = true ∧ r.id ≠ messageId

variable (codec : Codec) (statusPayload : Json → MessageStatusSyncPayload)
variable (currentUid : Option Nat)

/--
A drain changes the timeline and does not invalidate it: none of its items names the
timeline, one fails, the call is dropped, or it ends without reporting its events.
-/
def ItemDrain.Stale
    (d : ItemDrain) (bump reported : Bool) (p : ReceivePipeline ItemPayload) (s : Store)
    (key : ChannelCacheKey) : Prop :=
  match d.droppedAfter with
  | none =>
      codec.turnsTouch statusPayload currentUid bump key (turnsOf d.envs p.waiting) s ∧
        ¬ (reported = true ∧
          codec.turnsReport statusPayload currentUid bump key (turnsOf d.envs p.waiting) s)
  | some n =>
      codec.turnsTouch statusPayload currentUid bump key
        ((turnsOf d.envs p.waiting).take n) s

/-- A page changes the timeline, and it fails or another one is invalidated. -/
def Codec.pageStale
    (env : Env) (items : List MessageHistoryItem) (channelType : Int)
    (invalidates : Prop) (s : Store) (key : ChannelCacheKey) : Prop :=
  upsertsTouch currentUid env key (codec.pageInputs items channelType) s ∧
    ¬ (UpsertsSucceed currentUid env (codec.pageInputs items channelType) s ∧
      invalidates)

/--
The channels that a command can change without invalidating them: it reads the
channel of its message before it writes, and that can fail; it fails after its first
write; it changes a second channel; or it invalidates none.
-/
def TimelineCommand.stale
    (env : Env) (p : ReceivePipeline ItemPayload) (s : Store) (key : ChannelCacheKey) :
    TimelineCommand → Prop
  | .createLocalMessage .. => False
  | .createLocalMessageQueued .. => False
  | .finalizeAttachmentAndEnqueue .. => False
  | .setMessagePinned .. => False
  | .deleteMessageLocal .. => False
  | .finalizeLocalAttachment messageId .. =>
      s.holds key messageId ∧ env.fault "lookup finalized message channel" = true
  | .markMessageSent messageId serverMessageId _ =>
      (s.holds key messageId ∧ env.fault "get message by id" = true) ∨
        (¬ s.holds key messageId ∧ s.holdsOther key messageId serverMessageId)
  | .updateMessageStatus messageId _ =>
      s.holds key messageId ∧ env.fault "get message by id" = true
  | .setMessageRevoke messageId .. =>
      s.holds key messageId ∧
        (env.fault "get message by id" = true ∨
          env.fault "update revoked message row" = true)
  | .editMessage messageId .. =>
      s.holds key messageId ∧
        (env.fault "get message by id" = true ∨
          env.fault "query message for edit" = true ∨
          env.fault "upsert message_extra edit" = true)
  | .deleteChannelLocal channelId => ¬ s.apartFrom key channelId
  | .updateThumbStatus messageId _ => s.holds key messageId
  | .completeThumbnailDownload ownerMatches messageId _ =>
      ownerMatches = true ∧ s.holds key messageId
  | .updateMediaDownloaded messageId _ => s.holds key messageId
  | .enqueueOutbound messageId .. => s.holds key messageId
  | .outboxAckSent messageId serverMessageId _ =>
      s.holds key messageId ∨ s.holdsOther key messageId serverMessageId
  | .outboxReconcileSent messageId _ => s.holds key messageId
  | .outboxReject messageId _ => s.holds key messageId
  | .updateMessageContentLocal messageId _ => s.holds key messageId
  | .updateLocalMessageId messageId _ => s.holds key messageId
  | .drainItem _ c => ∃ n, messageIdOfKey c.key = some n ∧ s.holds key n
  | .markMessageDelivered serverMessageId _ => s.holdsServerId key serverMessageId
  | .enqueueAndApplySyncItems entityType scope items bump d =>
      d.Stale codec statusPayload currentUid bump true
        (p.enqueue entityType scope items).2 s key
  | .syncEntities pull d cursorSaved =>
      pull.complete = true ∧
        d.Stale codec statusPayload currentUid false cursorSaved
          (enqueueReplies pull.entityType pull.scope p 0 0 pull.replies).2.2 s key
  | .fetchChannelHistory answer channelId channelType =>
      codec.pageStale currentUid env (answeredPage env answer)
        (normalizedChannelType channelType)
        ({ channelId := channelId, channelType := channelType } = key) s key
  | .fetchMessagesAround server channelId channelType messageId beforeLimit afterLimit =>
      codec.pageStale currentUid env
        (server.page env
          { channelId := channelId
            messageId := messageId
            beforeLimit := beforeLimit
            afterLimit := afterLimit })
        (normalizedChannelType channelType)
        ({ channelId := channelId, channelType := channelType } = key) s key
  | .repairMessageProjection server repair =>
      codec.pageStale currentUid env (server.page env repair.request)
        repair.normalizedType
        ({ channelId := repair.channelId, channelType := repair.channelType } = key ∧
          codec.RepairFinds currentUid server repair env s) s key
  | .hydrateChannel items channelType =>
      upsertsTouch currentUid env key
        (codec.pageInputs items (normalizedChannelType channelType)) s
  | .hydrateMessage item channelType =>
      (codec.historyItemToUpsertInput item channelType).touches currentUid key s

/--
The budget cuts a page at its end: of the messages behind the first `minMessages`,
none that fits comes behind one that does not.
-/
def fitsBudget (minMessages perBudget : Nat) :
    Nat → Nat → List StoredMessage → Bool
  | _, _, [] => true
  | kept, bytes, message :: messages =>
      if kept < minMessages ∨ bytes + estimateMessageBytes message ≤ perBudget then
        fitsBudget minMessages perBudget (kept + 1)
          (bytes + estimateMessageBytes message) messages
      else
        messages.all (fun later =>
          decide (perBudget < bytes + estimateMessageBytes later))

/-- The budget of a channel cuts the page at its end. -/
def Session.MessageCachePolicyConfig.fits
    (config : MessageCachePolicyConfig) (page : List StoredMessage) : Bool :=
  fitsBudget (max (min config.minMessages config.maxMessages) 1)
    config.perChannelBudgetBytes 0 0 (page.take (max config.maxMessages 1))

/-- An entry reaches far enough for a limit, in a channel of so many messages. -/
def Session.ChannelMessageCache.Reaches
    (entry : ChannelMessageCache) (total limit : Nat) : Prop :=
  entry.messages.length = total ∨ max limit 1 < entry.messages.length ∨
    (max limit 1 = entry.messages.length ∧ entry.hasMoreBefore = true)

variable (cacheConfig : Option MessageCachePolicyConfig)

/-- The query is one that the cache answers rightly, if it answers it. -/
def TimelineSession.Answerable
    (x : TimelineSession) (key : ChannelCacheKey) (limit offset : Nat) : Prop :=
  ∀ entry, x.memory.channelMessageCache key = some entry → entry.messages ≠ [] →
    offset = 0 → cacheConfig.isSome = true →
      entry.Reaches (x.store.timeline key).length limit

instance (entry : ChannelMessageCache) (total limit : Nat) :
    Decidable (entry.Reaches total limit) :=
  inferInstanceAs (Decidable (_ ∨ _ ∨ _))

instance (x : TimelineSession) (key : ChannelCacheKey) (limit offset : Nat) :
    Decidable (x.Answerable cacheConfig key limit offset) :=
  inferInstanceAs (Decidable (∀ entry ∈ x.memory.channelMessageCache key,
    entry.messages ≠ [] → offset = 0 → cacheConfig.isSome = true →
      entry.Reaches (x.store.timeline key).length limit))

/-- The page that the query puts into the cache, if it does, is cut at its end. -/
def TimelineSession.Storable
    (x : TimelineSession) (key : ChannelCacheKey) (limit offset : Nat) : Prop :=
  (∀ entry, x.memory.channelMessageCache key = some entry → entry.messages = []) →
    offset = 0 → ∀ config, cacheConfig = some config →
      config.fits ((x.store.timeline key).take (max limit 1)) = true

instance (x : TimelineSession) (key : ChannelCacheKey) (limit offset : Nat) :
    Decidable (x.Storable cacheConfig key limit offset) :=
  inferInstanceAs (Decidable (
    (∀ entry ∈ x.memory.channelMessageCache key, entry.messages = []) →
      offset = 0 → ∀ config ∈ cacheConfig,
        config.fits ((x.store.timeline key).take (max limit 1)) = true))

/-- No command leaves a changed channel in the cache, no query hits its limits. -/
def TimelineSession.Sound (x : TimelineSession) : TimelineEvent → Prop
  | .command env c =>
      ∀ key, c.stale codec statusPayload currentUid env x.receivePipeline x.store key →
        x.memory.channelMessageCache key = none
  | .query key limit offset =>
      x.Answerable cacheConfig key limit offset ∧
        x.Storable cacheConfig key limit offset

/-- A query is answered as from the store. -/
def TimelineSession.Answers (x : TimelineSession) : TimelineEvent → Prop
  | .command _ _ => True
  | .query key limit offset =>
      ((x.query cacheConfig key limit offset).1.messages,
        (x.query cacheConfig key limit offset).1.hasMoreBefore) =
          x.store.timelinePage key limit offset

instance
    (x : TimelineSession) (key : ChannelCacheKey) (limit offset : Nat) :
    Decidable (x.Answers cacheConfig (.query key limit offset)) :=
  inferInstanceAs (Decidable (_ = _))

/-- Every entry is a beginning of its timeline, and knows if there is more. -/
def TimelineSession.InSync (x : TimelineSession) : Prop :=
  ∀ key entry, x.memory.channelMessageCache key = some entry →
    entry.messages <+: x.store.timeline key ∧
      (entry.hasMoreBefore = true →
        entry.messages.length < (x.store.timeline key).length)

end Conditions

section Commands

variable {codec : Codec} {statusPayload : Json → MessageStatusSyncPayload}
variable {currentUid : Option Nat}
variable {x : TimelineSession} {key : ChannelCacheKey} {env : Env}

/-- The entry of the channel is gone, or it and its timeline are as they were. -/
def KeptOrGone (key : ChannelCacheKey) (x x' : TimelineSession) : Prop :=
  x'.memory.channelMessageCache key = none ∨
    (x'.memory.channelMessageCache key = x.memory.channelMessageCache key ∧
      x'.store.timeline key = x.store.timeline key)

/-- A command that invalidates the channel where it does not keep it. -/
theorem keptOrGone_perform
    {α : Type} {op : StoreM α} {invalidates : α → Option ChannelCacheKey}
    (h : ∀ res s', op env x.store = (res, s') →
      (∃ a, res = .ok a ∧ invalidates a = some key) ∨
        KeepsChannel key x.store s') :
    KeptOrGone key x (x.perform env op invalidates) := by
  unfold TimelineSession.perform
  cases hrun : op env x.store with
  | mk res s' =>
  rcases h res s' hrun with ⟨a, rfl, hkey⟩ | hkeeps
  · left
    simp [hkey]
  · cases res with
    | error e =>
        exact Or.inr ⟨rfl, hkeeps.timeline⟩
    | ok a =>
        dsimp only
        cases hinv : invalidates a with
        | none =>
            exact Or.inr ⟨rfl, hkeeps.timeline⟩
        | some key' =>
            by_cases hkey : key = key'
            · left
              simp [hkey]
            · right
              refine ⟨?_, hkeeps.timeline⟩
              simp [hkey]

/-- An operation on one message, in a channel that does not hold it. -/
theorem keeps_of_spares
    {α : Type} {op : StoreM α} {n : Nat} {s s' : Store} {res : Except StoreError α}
    (hop : op.Relates (Spares n key)) (hn : ¬ s.holds key n)
    (hrun : op env s = (res, s')) : KeepsChannel key s s' := by
  have hspares := hop env s hn
  unfold Exec.after at hspares
  rw [hrun] at hspares
  exact hspares.1

theorem loadedKey_of_holds
    {s : Store} {n : Nat} (hn : s.holds key n)
    (hfault : env.fault "get message by id" = false) :
    s.loadedKey env n = some key := by
  obtain ⟨r, hr, hid, hkey⟩ := hn
  have hrow : s.message.byRowid n = some r :=
    (s.message.byRowid_eq_some_iff _ _).mpr ⟨hr, hid⟩
  have hload : getMessageById n env s = (.ok (s.storedMessage n), s) :=
    query_ok.mpr ⟨hfault, rfl, rfl⟩
  unfold Store.loadedKey
  rw [hload]
  unfold Store.storedMessage
  rw [hrow]
  exact congrArg some (MessageRow.inChannel_iff.mp hkey)

/-- A command that reads the channel of its message before it writes. -/
theorem keptOrGone_loaded
    {α : Type} {op : StoreM α} {n : Nat}
    (hop : op.Relates (Spares n key))
    (hfault : x.store.holds key n → env.fault "get message by id" = false)
    (herror : x.store.holds key n → ∀ e s',
      op env x.store = (.error e, s') → s' = x.store) :
    KeptOrGone key x (x.perform env op (fun _ => x.store.loadedKey env n)) := by
  refine keptOrGone_perform ?_
  intro res s' hrun
  by_cases hn : x.store.holds key n
  · cases res with
    | ok a =>
        exact Or.inl ⟨a, rfl, loadedKey_of_holds hn (hfault hn)⟩
    | error e =>
        rw [herror hn e s' hrun]
        exact Or.inr (KeepsChannel.refl key _)
  · exact Or.inr (keeps_of_spares hop hn hrun)

/-- A command that invalidates nothing. -/
theorem keptOrGone_silent
    {α : Type} {op : StoreM α} {n : Nat}
    (hop : op.Relates (Spares n key)) (hn : ¬ x.store.holds key n) :
    KeptOrGone key x (x.perform env op (fun _ => none)) :=
  keptOrGone_perform (fun _ _ hrun => Or.inr (keeps_of_spares hop hn hrun))

/-- An attachment is finished before its channel is looked up. -/
theorem finalizeLocalAttachment_finished
    {messageId : Nat} {content : String} {thumbStatus : Int} {s s' : Store}
    {res : Except StoreError (Nat × Int)} (hn : s.holds key messageId)
    (hfault : env.fault "lookup finalized message channel" = false)
    (h : finalizeLocalAttachment messageId content thumbStatus env s = (res, s')) :
    res = .ok (key.channelId, key.channelType) ∨ s' = s := by
  obtain ⟨r, hr, hid, hkey⟩ := hn
  have hrow : s.message.byRowid messageId = some r :=
    (s.message.byRowid_eq_some_iff _ _).mpr ⟨hr, hid⟩
  unfold finalizeLocalAttachment at h
  rw [nowMs_bind, Exec.bind_run] at h
  split at h
  · rename_i n s₁ hm
    obtain ⟨-, -, rfl⟩ := modifyMessage_ok.mp hm
    rw [Exec.bind_run] at h
    have hself : (r.id == messageId) = true := by simpa using hid
    rw [queryRow_ok.mpr ⟨hfault, by rw [Table.byRowid_modify, hrow]; rfl, rfl⟩] at h
    cases h
    left
    simp only [hself, if_true]
    rw [← MessageRow.inChannel_iff.mp hkey]
    rfl
  · rename_i e s₁ hm
    cases h
    exact Or.inr (modifyMessage_error hm).1

/-- An edit that failed and met none of the later faults wrote nothing. -/
theorem editMessage_failed
    {messageId : Nat} {content : String} {editedAt : Int} {s s' : Store}
    {e : StoreError} (hquery : env.fault "query message for edit" = false)
    (hextra : env.fault "upsert message_extra edit" = false)
    (h : editMessage messageId content editedAt env s = (.error e, s')) : s' = s := by
  unfold editMessage at h
  rw [nowMs_bind] at h
  rcases Exec.bind_error.mp h with hm | ⟨u, s₁, hm, hrest⟩
  · rcases modifyExisting_cases hm with ⟨e', -, hs⟩ | ⟨hok, -, -⟩
    · exact hs
    · cases hok
  · rcases modifyExisting_cases hm with ⟨e', he, -⟩ | ⟨-, hsome, rfl⟩
    · cases he
    · obtain ⟨r, hrow⟩ := Option.isSome_iff_exists.mp hsome
      rcases Exec.bind_error.mp hrest with hq | ⟨row, s₂, hq, hw⟩
      · rw [queryRow_ok.mpr ⟨hquery, by rw [Table.byRowid_modify, hrow]; rfl, rfl⟩] at hq
        cases hq
      · rw [exec_fault hw] at hextra
        cases hextra

theorem setMessageRevoke_failed
    {messageId : Nat} {revoked : Bool} {revoker : Option Nat} {s s' : Store}
    {e : StoreError} (hrow : env.fault "update revoked message row" = false)
    (h : setMessageRevoke messageId revoked revoker env s = (.error e, s')) :
    s' = s := by
  unfold setMessageRevoke at h
  rcases Exec.bind_error.mp h with hq | ⟨found, s₁, hq, hrest⟩
  · exact (query_error hq).1
  · obtain ⟨-, hfound, rfl⟩ := query_ok.mp hq
    cases found with
    | none =>
        cases hrest
    | some row =>
        dsimp only at hrest
        rw [nowMs_bind] at hrest
        rcases Exec.bind_error.mp hrest with hw | ⟨u, s₂, hw, hrest⟩
        · exact (exec_error hw).1
        · obtain ⟨-, rfl⟩ := exec_ok.mp hw
          split at hrest
          · have hwritten := hrest.symm.trans (modifyExisting_found hrow hfound)
            cases hwritten
          · cases hrest

theorem applyThumbnailDownloadOutcome_spares
    (key : ChannelCacheKey) (messageId : Nat) (outcome : ThumbnailDownloadOutcome)
    (ownerMatches : Bool) :
    (applyThumbnailDownloadOutcome ownerMatches messageId outcome).Relates
      (Spares messageId key) := by
  have hrefl := Spares.refl messageId key
  unfold applyThumbnailDownloadOutcome
  refine Exec.Relates.ite ?_ (Exec.relates_pure hrefl _)
  refine Exec.Relates.bind Spares.trans
    (Exec.Relates.attempt (spares_updateThumbStatus key messageId _))
    (fun updated => ?_)
  cases updated with
  | ok rows =>
      exact Exec.relates_pure hrefl _
  | error e =>
      exact Exec.relates_pure hrefl _

/-- An entry of an old queue changes the message that its key names. -/
theorem drainItem_keeps
    {commandType : String} {c : LegacyCommand} {s s' : Store}
    {res : Except StoreError Verdict}
    (hn : ∀ n, messageIdOfKey c.key = some n → ¬ s.holds key n)
    (h : PrivchatSdk.drainItem commandType c env s = (res, s')) :
    KeepsChannel key s s' := by
  unfold PrivchatSdk.drainItem at h
  cases hkey : messageIdOfKey c.key with
  | none =>
      rw [hkey] at h
      cases h
      exact KeepsChannel.refl key s
  | some n =>
      rw [hkey] at h
      have hrefl := Spares.refl n key
      refine keeps_of_spares (Exec.Relates.bind Spares.trans
        (relates_query hrefl _ _) (fun found => ?_)) (hn n hkey) h
      refine Exec.Relates.ite (Exec.relates_pure hrefl _) ?_
      refine Exec.Relates.bind Spares.trans
        (Exec.Relates.attempt (spares_outboxEnqueue key n _ _ _ _)) (fun moved => ?_)
      split
      · exact Exec.relates_pure hrefl _
      · refine Exec.Relates.bind Spares.trans
          (Exec.Relates.attempt (spares_updateMessageStatus key n 3)) (fun marked => ?_)
        cases marked with
        | ok _ =>
            exact Exec.relates_pure hrefl _
        | error e =>
            exact Exec.relates_pure hrefl _
      · exact Exec.relates_pure hrefl _

/-- The channels of the events leave the cache, and no other. -/
theorem channelMessageCache_invalidateForEvents
    (m : Memory) (events : List SdkEvent) (k : ChannelCacheKey) :
    (m.invalidateCacheForEvents events).channelMessageCache k = none ∨
      ((m.invalidateCacheForEvents events).channelMessageCache k =
          m.channelMessageCache k ∧
        ∀ messageId reason,
          SdkEvent.timelineUpdated k.channelId k.channelType messageId reason ∉
            events) := by
  induction events generalizing m with
  | nil =>
      exact Or.inr ⟨rfl, by simp⟩
  | cons event events ih =>
      cases event with
      | timelineUpdated channelId channelType messageId reason =>
          unfold Memory.invalidateCacheForEvents
          rcases ih (m.evictChannelCache
            { channelId := channelId, channelType := channelType }) with
            hnone | ⟨heq, hnot⟩
          · exact Or.inl hnone
          · rw [heq, channelMessageCache_evict]
            split
            · exact Or.inl rfl
            · rename_i hne
              right
              refine ⟨rfl, ?_⟩
              intro messageId' reason' hmem
              rcases List.mem_cons.mp hmem with hhead | htail
              · cases hhead
                exact hne rfl
              · exact hnot messageId' reason' htail
      | _ =>
          unfold Memory.invalidateCacheForEvents
          rcases ih m with hnone | ⟨heq, hnot⟩
          · exact Or.inl hnone
          · exact Or.inr ⟨heq, by simpa using hnot⟩

/-- The rows with the server id are outside of the channel. -/
theorem outside_of_not_holdsOther
    {s : Store} {n serverMessageId : Nat} (hn : ¬ s.holds key n)
    (hother : ¬ s.holdsOther key n serverMessageId) :
    ∀ r ∈ s.message.rows, r.serverMessageId = some serverMessageId →
      r.inChannel key = false := by
  intro r hr hsid
  rw [← Bool.not_eq_true]
  intro hkey
  by_cases hid : r.id = n
  · exact hn ⟨r, hr, hid, hkey⟩
  · exact hother ⟨r, hr, hsid, hkey, hid⟩

theorem keptOrGone_markMessageSent
    {n serverMessageId : Nat} {messageSeq : Int}
    (hfault : x.store.holds key n → env.fault "get message by id" = false)
    (hother : ¬ x.store.holds key n → ¬ x.store.holdsOther key n serverMessageId) :
    KeptOrGone key x (x.perform env (markMessageSent n serverMessageId messageSeq)
      (fun _ => x.store.loadedKey env n)) := by
  refine keptOrGone_perform ?_
  intro res s' hrun
  have houtcome := markMessageSent_outcome hrun
  by_cases hn : x.store.holds key n
  · cases houtcome with
    | failed e he =>
        exact Or.inr (KeepsChannel.refl key _)
    | acked row t hrow ht =>
        exact Or.inl ⟨_, rfl, loadedKey_of_holds hn (hfault hn)⟩
  · exact Or.inr (houtcome.keeps hn (outside_of_not_holdsOther hn (hother hn)))

/-- An attachment that is finished and queued reports its own channel. -/
theorem keptOrGone_finalizeAttachmentAndEnqueue
    (n : Nat) (content : String) (thumbStatus : Int) (routeKey : String)
    (payload : List UInt8) :
    KeptOrGone key x (x.perform env
      (finalizeAttachmentAndEnqueue n content thumbStatus routeKey payload)
      (fun c => some { channelId := c.1, channelType := c.2 })) := by
  refine keptOrGone_perform ?_
  intro res s' hrun
  by_cases hn : x.store.holds key n
  · obtain ⟨r, hr, hid, hkey⟩ := hn
    have houtcome := finalizeAttachmentAndEnqueue_outcome hrun
    cases houtcome with
    | failed e =>
        exact Or.inr (KeepsChannel.refl key _)
    | enqueued row o hrow hpos ho =>
        rw [(x.store.message.byRowid_eq_some_iff _ _).mpr ⟨hr, hid⟩] at hrow
        cases hrow
        exact Or.inl ⟨_, rfl, congrArg some (MessageRow.inChannel_iff.mp hkey)⟩
  · exact Or.inr (keeps_of_spares
      (spares_finalizeAttachmentAndEnqueue key n _ _ _ _) hn hrun)

/-- A page that does not leave the timeline stale keeps it, or it is invalidated. -/
theorem keeps_or_invalidated
    {items : List MessageHistoryItem} {channelType : Int} {invalidates : Prop} {s : Store}
    (h : ¬ codec.pageStale currentUid env items channelType invalidates s key) :
    KeepsChannel key s
        ((codec.storeHistoryItems currentUid items channelType).after env s) ∨
      UpsertsSucceed currentUid env (codec.pageInputs items channelType) s ∧
        invalidates := by
  by_cases htouch : upsertsTouch currentUid env key (codec.pageInputs items channelType) s
  · exact Or.inr (not_not.mp (fun hn => h ⟨htouch, hn⟩))
  · exact Or.inl (storeHistoryItems_keeps htouch)

/-- A drain keeps the timeline, or it ends well and its events report the timeline. -/
theorem keeps_or_reported
    {bump reported : Bool} {d : ItemDrain} {r : Option (List SdkEvent) × TimelineSession}
    (h : ¬ d.Stale codec statusPayload currentUid bump reported x.receivePipeline x.store
      key)
    (hdrain : x.drain codec statusPayload currentUid bump d = r) :
    r.2.memory = x.memory ∧
      (KeepsChannel key x.store r.2.store ∨
        reported = true ∧ ∃ events, r.1 = some events ∧ Reports key events) := by
  unfold ItemDrain.Stale at h
  unfold TimelineSession.drain at hdrain
  cases hdropped : d.droppedAfter with
  | some n =>
      rw [hdropped] at h hdrain
      subst hdrain
      exact ⟨rfl, Or.inl (applySyncEntries_keeps h)⟩
  | none =>
      rw [hdropped] at h hdrain
      subst hdrain
      refine ⟨rfl, ?_⟩
      rcases hbatches : codec.drainBatches statusPayload currentUid bump d.envs
        x.receivePipeline x.store with ⟨res, p, s'⟩
      have hturns : (res.map Prod.snd, s') =
          codec.applySyncEntries statusPayload currentUid bump
            (turnsOf d.envs x.receivePipeline.waiting) x.store := by
        rw [← drainBatches_turns, hbatches]
      dsimp only
      by_cases htouch : codec.turnsTouch statusPayload currentUid bump key
          (turnsOf d.envs x.receivePipeline.waiting) x.store
      · obtain ⟨hreported, hreport⟩ := not_not.mp (fun hn => h ⟨htouch, hn⟩)
        obtain ⟨events, hrun, hevents⟩ := hreport.reports
        have hres : res.map Prod.snd = .ok events :=
          congrArg Prod.fst (hturns.trans hrun)
        refine Or.inr ⟨hreported, events, ?_, hevents⟩
        cases res with
        | error e =>
            cases hres
        | ok r =>
            cases hres
            rfl
      · have hkeeps := applySyncEntries_keeps htouch
        rw [← hturns] at hkeeps
        exact Or.inl hkeeps

/-- A call that reports its events leaves no entry that its drain made stale. -/
theorem keptOrGone_finishSync
    (x' : TimelineSession) {events : List SdkEvent}
    (hmemory : x'.memory.channelMessageCache key = x.memory.channelMessageCache key)
    (h : KeepsChannel key x.store x'.store ∨ Reports key events) :
    KeptOrGone key x { x' with memory := x'.memory.finishSync events } := by
  change (x'.memory.invalidateCacheForEvents events).channelMessageCache key = none ∨
    (x'.memory.invalidateCacheForEvents events).channelMessageCache key =
      x.memory.channelMessageCache key ∧ x'.store.timeline key = x.store.timeline key
  rcases channelMessageCache_invalidateForEvents x'.memory events key with
    hnone | ⟨heq, hnot⟩
  · exact Or.inl hnone
  · rcases h with hkeeps | ⟨messageId, reason, hmem⟩
    · exact Or.inr ⟨heq.trans hmemory, hkeeps.timeline⟩
    · exact absurd hmem (hnot messageId reason)

theorem keptOrGone_enqueueAndApplySyncItems
    {entityType : String} {scope : Option String}
    {items : List (SyncEntityItem ItemPayload)} {bump : Bool} {d : ItemDrain}
    (h : ¬ d.Stale codec statusPayload currentUid bump true
      (x.receivePipeline.enqueue entityType scope items).2 x.store key) :
    KeptOrGone key x (x.enqueueAndApplySyncItems codec statusPayload currentUid entityType
      scope items bump d) := by
  unfold TimelineSession.enqueueAndApplySyncItems
  dsimp only
  split
  · rename_i events x' hdrain
    obtain ⟨hmemory, hstore⟩ := keeps_or_reported h hdrain
    refine keptOrGone_finishSync x' (congrArg (fun m => m.channelMessageCache key) hmemory) ?_
    rcases hstore with hkeeps | ⟨-, events', hevents, hreports⟩
    · exact Or.inl hkeeps
    · cases hevents
      exact Or.inr hreports
  · rename_i x' hdrain
    obtain ⟨hmemory, hstore⟩ := keeps_or_reported h hdrain
    rcases hstore with hkeeps | ⟨-, events', hevents, -⟩
    · exact Or.inr ⟨congrArg (fun m => m.channelMessageCache key) hmemory,
        hkeeps.timeline⟩
    · cases hevents

theorem keptOrGone_syncEntities
    {pull : SyncPull ItemPayload} {d : ItemDrain} {cursorSaved : Bool}
    (h : ¬ (pull.complete = true ∧
      d.Stale codec statusPayload currentUid false cursorSaved
        (enqueueReplies pull.entityType pull.scope x.receivePipeline 0 0
          pull.replies).2.2 x.store key)) :
    KeptOrGone key x
      (x.syncEntities codec statusPayload currentUid pull d cursorSaved) := by
  unfold TimelineSession.syncEntities
  dsimp only
  split
  · rename_i hcomplete
    have hfresh := not_and.mp h hcomplete
    split
    · rename_i events x' hdrain
      obtain ⟨hmemory, hstore⟩ := keeps_or_reported hfresh hdrain
      have hcache := congrArg (fun m => m.channelMessageCache key) hmemory
      cases cursorSaved with
      | true =>
          rw [if_pos rfl]
          refine keptOrGone_finishSync
            { x' with memory := x'.memory.countSync _ _ } hcache ?_
          rcases hstore with hkeeps | ⟨-, events', hevents, hreports⟩
          · exact Or.inl hkeeps
          · cases hevents
            exact Or.inr hreports
      | false =>
          rw [if_neg Bool.false_ne_true]
          rcases hstore with hkeeps | ⟨hsaved, -⟩
          · exact Or.inr ⟨hcache, hkeeps.timeline⟩
          · cases hsaved
    · rename_i x' hdrain
      obtain ⟨hmemory, hstore⟩ := keeps_or_reported hfresh hdrain
      rcases hstore with hkeeps | ⟨-, events', hevents, -⟩
      · exact Or.inr ⟨congrArg (fun m => m.channelMessageCache key) hmemory,
          hkeeps.timeline⟩
      · cases hevents
  · exact Or.inr ⟨rfl, rfl⟩

/-- A channel that a command does not leave stale. -/
theorem keptOrGone_command
    {c : TimelineCommand}
    (h : ¬ c.stale codec statusPayload currentUid env x.receivePipeline x.store key) :
    KeptOrGone key x (x.command codec statusPayload currentUid env c) := by
  cases c with
  | createLocalMessage input localMessageId =>
      refine keptOrGone_perform ?_
      intro res s' hrun
      rcases createLocalMessage_keeps hrun with ⟨⟨n, rfl⟩, hkey⟩ | hkeeps
      · exact Or.inl ⟨n, rfl, congrArg some hkey⟩
      · exact Or.inr hkeeps
  | createLocalMessageQueued input localMessageId commandType payload routeKey =>
      refine keptOrGone_perform ?_
      intro res s' hrun
      rcases createLocalMessageQueued_keeps hrun with ⟨⟨n, rfl⟩, hkey⟩ | hkeeps
      · exact Or.inl ⟨n, rfl, congrArg some hkey⟩
      · exact Or.inr hkeeps
  | finalizeAttachmentAndEnqueue messageId content thumbStatus routeKey payload =>
      exact keptOrGone_finalizeAttachmentAndEnqueue messageId content thumbStatus
        routeKey payload
  | finalizeLocalAttachment messageId content thumbStatus =>
      refine keptOrGone_perform ?_
      intro res s' hrun
      by_cases hn : x.store.holds key messageId
      · have hfault : env.fault "lookup finalized message channel" = false := by
          simpa using fun hf => h ⟨hn, hf⟩
        rcases finalizeLocalAttachment_finished hn hfault hrun with rfl | rfl
        · exact Or.inl ⟨_, rfl, rfl⟩
        · exact Or.inr (KeepsChannel.refl key _)
      · exact Or.inr (keeps_of_spares
          (spares_finalizeLocalAttachment key messageId _ _) hn hrun)
  | markMessageSent messageId serverMessageId messageSeq =>
      refine keptOrGone_markMessageSent ?_ ?_
      · intro hn
        simpa using fun hf => h (Or.inl ⟨hn, hf⟩)
      · intro hn hother
        exact h (Or.inr ⟨hn, hother⟩)
  | updateMessageStatus messageId status =>
      refine keptOrGone_loaded (spares_updateMessageStatus key messageId status) ?_ ?_
      · intro hn
        simpa using fun hf => h ⟨hn, hf⟩
      · intro hn e s' hrun
        rcases updateMessageStatus_cases hrun with ⟨e', -, hs⟩ | ⟨hok, -⟩
        · exact hs
        · cases hok
  | setMessageRevoke messageId revoked revoker =>
      refine keptOrGone_loaded (spares_setMessageRevoke key messageId _ _) ?_ ?_
      · intro hn
        simpa using fun hf => h ⟨hn, Or.inl hf⟩
      · intro hn e s' hrun
        refine setMessageRevoke_failed ?_ hrun
        simpa using fun hf => h ⟨hn, Or.inr hf⟩
  | editMessage messageId content editedAt =>
      refine keptOrGone_loaded (spares_editMessage key messageId _ _) ?_ ?_
      · intro hn
        simpa using fun hf => h ⟨hn, Or.inl hf⟩
      · intro hn e s' hrun
        refine editMessage_failed ?_ ?_ hrun
        · simpa using fun hf => h ⟨hn, Or.inr (Or.inl hf)⟩
        · simpa using fun hf => h ⟨hn, Or.inr (Or.inr hf)⟩
  | setMessagePinned messageId isPinned =>
      exact keptOrGone_perform (fun _ _ hrun => Or.inr (setMessagePinned_keeps hrun))
  | deleteMessageLocal messageId =>
      refine keptOrGone_perform ?_
      intro res s' hrun
      rcases deleteMessageLocal_keeps hrun with ⟨stored, rfl, hkey⟩ | hkeeps
      · exact Or.inl ⟨_, rfl, congrArg some hkey⟩
      · exact Or.inr hkeeps
  | deleteChannelLocal channelId =>
      refine keptOrGone_perform (fun _ _ hrun => Or.inr ?_)
      exact deleteChannelLocal_keeps (not_not.mp h) hrun
  | updateThumbStatus messageId thumbStatus =>
      exact keptOrGone_silent (spares_updateThumbStatus key messageId _) h
  | completeThumbnailDownload ownerMatches messageId outcome =>
      cases ownerMatches with
      | false =>
          refine keptOrGone_perform (fun res s' hrun => Or.inr ?_)
          cases hrun
          exact KeepsChannel.refl key _
      | true =>
          exact keptOrGone_silent
            (applyThumbnailDownloadOutcome_spares key messageId outcome true)
            (fun hn => h ⟨rfl, hn⟩)
  | updateMediaDownloaded messageId downloaded =>
      exact keptOrGone_silent (spares_updateMediaDownloaded key messageId _) h
  | enqueueOutbound messageId commandType payload routeKey =>
      exact keptOrGone_silent (spares_outboxEnqueue key messageId _ _ _ _) h
  | outboxAckSent messageId serverMessageId messageSeq =>
      have hn : ¬ x.store.holds key messageId := fun hn => h (Or.inl hn)
      refine keptOrGone_perform (fun res s' hrun => Or.inr ?_)
      exact (outboxAckSent_outcome hrun).keeps hn
        (outside_of_not_holdsOther hn (fun hother => h (Or.inr hother)))
  | outboxReconcileSent messageId serverMessageId =>
      exact keptOrGone_silent (spares_outboxReconcileSent key messageId _) h
  | outboxReject messageId status =>
      exact keptOrGone_silent (spares_outboxReject key messageId _) h
  | updateMessageContentLocal messageId content =>
      exact keptOrGone_silent (spares_updateMessageContentLocal key messageId _) h
  | updateLocalMessageId messageId localMessageId =>
      exact keptOrGone_silent (spares_updateLocalMessageId key messageId _) h
  | drainItem commandType c =>
      refine keptOrGone_perform (fun res s' hrun => Or.inr ?_)
      exact drainItem_keeps (fun n hkey hn => h ⟨n, hkey, hn⟩) hrun
  | markMessageDelivered serverMessageId deliveredAt =>
      refine keptOrGone_perform (fun res s' hrun => Or.inr ?_)
      exact markMessageDelivered_keeps (outside_of_not_holdsServerId h) hrun
  | enqueueAndApplySyncItems entityType scope items bump d =>
      exact keptOrGone_enqueueAndApplySyncItems h
  | syncEntities pull d cursorSaved =>
      exact keptOrGone_syncEntities h
  | fetchChannelHistory answer channelId channelType =>
      refine keptOrGone_perform (fun res s' hrun => ?_)
      rcases fetchAndStoreChannelHistory_cases hrun with rfl | ⟨rfl, hok⟩
      · exact Or.inr (KeepsChannel.refl key _)
      rcases keeps_or_invalidated h with hkeeps | ⟨hsucceed, hkey⟩
      · exact Or.inr hkeeps
      · obtain ⟨items, rfl⟩ := hok hsucceed
        exact Or.inl ⟨items, rfl, congrArg some hkey⟩
  | fetchMessagesAround server channelId channelType messageId beforeLimit afterLimit =>
      refine keptOrGone_perform (fun res s' hrun => ?_)
      rcases fetchAndStoreMessagesAround_cases hrun with rfl | ⟨rfl, hok⟩
      · exact Or.inr (KeepsChannel.refl key _)
      rcases keeps_or_invalidated h with hkeeps | ⟨hsucceed, hkey⟩
      · exact Or.inr hkeeps
      · obtain ⟨resp, -, rfl⟩ := hok hsucceed
        exact Or.inl ⟨resp, rfl, congrArg some hkey⟩
  | repairMessageProjection server repair =>
      refine keptOrGone_perform (fun res s' hrun => ?_)
      rcases repairMessageProjection_cases hrun with rfl | ⟨rfl, hok⟩
      · exact Or.inr (KeepsChannel.refl key _)
      rcases keeps_or_invalidated h with hkeeps | ⟨hsucceed, hkey, hfinds⟩
      · exact Or.inr hkeeps
      · obtain ⟨messageId, rfl⟩ := hok hsucceed hfinds
        exact Or.inl ⟨some messageId, rfl, congrArg some hkey⟩
  | hydrateChannel items channelType =>
      refine keptOrGone_perform (fun res s' hrun => Or.inr ?_)
      have hkeeps := storeHistoryItems_keeps h
      unfold Exec.after at hkeeps
      rwa [hrun] at hkeeps
  | hydrateMessage item channelType =>
      exact keptOrGone_perform (fun res s' hrun => Or.inr (upsert_keeps h hrun))

end Commands

section Pages

variable {minMessages maxMessages perBudget : Nat}

/-- While the entry has room, a message is kept, or it alone is taken out again. -/
theorem fillChannelCache_cons
    {deque page : List StoredMessage} {bytes : Nat} {message : StoredMessage}
    (hlen : deque.length < maxMessages)
    (hbudget : deque.length ≤ minMessages ∨ bytes ≤ perBudget) :
    fillChannelCache minMessages maxMessages perBudget deque bytes
        (message :: page) =
      if deque.length < minMessages ∨
          bytes + estimateMessageBytes message ≤ perBudget then
        fillChannelCache minMessages maxMessages perBudget (deque ++ [message])
          (bytes + estimateMessageBytes message) page
      else
        fillChannelCache minMessages maxMessages perBudget deque bytes page := by
  have hsettled : ∀ fuel, fillChannelCache.shrink minMessages maxMessages perBudget
      fuel deque bytes = (deque, bytes) := by
    intro fuel
    cases fuel with
    | zero =>
        rfl
    | succ fuel =>
        unfold fillChannelCache.shrink
        exact if_neg (by omega)
  have hshrink : fillChannelCache.shrink minMessages maxMessages perBudget
      (deque.length + 1) (deque ++ [message])
      (bytes + estimateMessageBytes message) =
        if deque.length < minMessages ∨
            bytes + estimateMessageBytes message ≤ perBudget then
          (deque ++ [message], bytes + estimateMessageBytes message)
        else
          (deque, bytes) := by
    unfold fillChannelCache.shrink
    rw [List.length_append, List.length_singleton]
    by_cases hkeep : deque.length < minMessages ∨
        bytes + estimateMessageBytes message ≤ perBudget
    · rw [if_pos hkeep]
      exact if_neg (by omega)
    · rw [if_neg hkeep, if_pos (by omega), List.getLast?_concat,
        List.dropLast_concat]
      dsimp only
      rw [Nat.add_sub_cancel]
      exact hsettled _
  rw [fillChannelCache, hshrink]
  by_cases hkeep : deque.length < minMessages ∨
      bytes + estimateMessageBytes message ≤ perBudget
  · rw [if_pos hkeep, if_pos hkeep]
  · rw [if_neg hkeep, if_neg hkeep]

/-- Messages of which none fits are left out. -/
theorem fillChannelCache_left_out
    {deque page : List StoredMessage} {bytes : Nat}
    (hlen : deque.length < maxMessages) (hmin : minMessages ≤ deque.length)
    (hbudget : deque.length ≤ minMessages ∨ bytes ≤ perBudget)
    (hpage : ∀ later ∈ page, perBudget < bytes + estimateMessageBytes later) :
    fillChannelCache minMessages maxMessages perBudget deque bytes page =
      (deque, bytes) := by
  induction page with
  | nil =>
      rfl
  | cons message page ih =>
      obtain ⟨hmessage, hlater⟩ := List.forall_mem_cons.mp hpage
      rw [fillChannelCache_cons hlen hbudget, if_neg (by omega)]
      exact ih hlater

/-- A page that the budget cuts at its end leaves a beginning of it. -/
theorem fillChannelCache_cut
    {deque page : List StoredMessage} {bytes : Nat}
    (hlen : deque.length + page.length ≤ maxMessages)
    (hbudget : deque.length ≤ minMessages ∨ bytes ≤ perBudget)
    (hfits : fitsBudget minMessages perBudget deque.length bytes page = true) :
    (fillChannelCache minMessages maxMessages perBudget deque bytes page).1 <+:
      deque ++ page := by
  induction page generalizing deque bytes with
  | nil =>
      simp [fillChannelCache]
  | cons message page ih =>
      rw [List.length_cons] at hlen
      rw [fillChannelCache_cons (by omega) hbudget]
      unfold fitsBudget at hfits
      by_cases hkeep : deque.length < minMessages ∨
          bytes + estimateMessageBytes message ≤ perBudget
      · rw [if_pos hkeep] at hfits ⊢
        have hrest := @ih (deque ++ [message]) (bytes + estimateMessageBytes message)
        rw [List.length_append, List.length_singleton, List.append_assoc,
          List.singleton_append] at hrest
        exact hrest (by omega) (by omega) hfits
      · rw [if_neg hkeep] at hfits ⊢
        rw [fillChannelCache_left_out (by omega) (by omega) hbudget
          (by simpa using hfits)]
        exact List.prefix_append deque _

theorem filled_of_fits
    {config : MessageCachePolicyConfig} {page : List StoredMessage}
    (h : config.fits page = true) : config.filled page <+: page := by
  have hlen : ([] : List StoredMessage).length +
      (page.take (max config.maxMessages 1)).length ≤ max config.maxMessages 1 := by
    rw [List.length_nil, Nat.zero_add]
    exact List.length_take_le _ _
  have hcut := fillChannelCache_cut hlen (Or.inl (Nat.zero_le _)) h
  rw [List.nil_append] at hcut
  exact hcut.trans (List.take_prefix _ page)

end Pages

section Entries

variable {cacheConfig : Option MessageCachePolicyConfig} {m : Memory}
variable {entry : ChannelMessageCache}

/-- A query from offset zero is not answered from the cache only if it is empty. -/
theorem snapshotFromCache_eq_none
    {key : ChannelCacheKey} {limit offset : Nat}
    (h : m.snapshotFromCache cacheConfig key limit offset = none)
    (hoffset : offset = 0) (hconfig : cacheConfig.isSome = true) :
    ∀ entry, m.channelMessageCache key = some entry → entry.messages = [] := by
  intro entry hentry
  unfold Memory.snapshotFromCache at h
  rw [if_neg (by simp [hoffset, Option.isNone_iff_eq_none,
    Option.isSome_iff_ne_none.mp hconfig]), hentry] at h
  dsimp only at h
  split at h
  · rename_i hempty
    simpa using hempty
  · cases h

/-- The messages that an entry in sync answers are right if it reaches so far. -/
theorem Session.ChannelMessageCache.reaches_iff
    {timeline : List StoredMessage} {limit : Nat}
    (hbegin : entry.messages <+: timeline)
    (hmore : entry.hasMoreBefore = true →
      entry.messages.length < timeline.length) :
    entry.Reaches timeline.length limit ↔
      ((entry.snapshot limit).messages, (entry.snapshot limit).hasMoreBefore) =
        (timeline.take (max limit 1), decide (max limit 1 < timeline.length)) := by
  obtain ⟨rest, rfl⟩ := hbegin
  unfold Session.ChannelMessageCache.Reaches ChannelMessageCache.snapshot
  dsimp only
  rw [List.length_append] at hmore ⊢
  have hmessages : entry.messages.take (max limit 1) =
      (entry.messages ++ rest).take (max limit 1) ↔
        max limit 1 ≤ entry.messages.length ∨ rest.length = 0 := by
    rw [List.take_append, List.self_eq_append_right, List.take_eq_nil_iff,
      Nat.sub_eq_zero_iff_le, List.length_eq_zero_iff]
  rw [Prod.mk.injEq, hmessages, List.length_take]
  cases hflag : entry.hasMoreBefore with
  | true =>
      have hrest := hmore hflag
      simp only [Bool.true_or, true_eq_decide_iff, and_true]
      omega
  | false =>
      simp only [Bool.false_or, decide_eq_decide, Bool.false_eq_true, and_false,
        or_false]
      omega

end Entries

section Runs

variable {codec : Codec} {statusPayload : Json → MessageStatusSyncPayload}
variable {currentUid : Option Nat} {cacheConfig : Option MessageCachePolicyConfig}
variable {x : TimelineSession} {key : ChannelCacheKey} {env : Env}
variable {entry : ChannelMessageCache}

theorem Store.timelinePage_zero (s : Store) (key : ChannelCacheKey) (limit : Nat) :
    s.timelinePage key limit 0 =
      ((s.timeline key).take (max limit 1),
        decide (max limit 1 < (s.timeline key).length)) := by
  unfold Store.timelinePage Store.listMessages
  rw [if_pos (Nat.two_pow_pos _), List.drop_zero, List.take_take, List.length_take,
    Nat.min_eq_left (Nat.le_succ _), Prod.mk.injEq]
  refine ⟨rfl, ?_⟩
  rw [decide_eq_decide]
  omega

theorem inSync_fresh (s : Store) (p : ReceivePipeline ItemPayload) :
    (TimelineSession.fresh s p).InSync := by
  intro key entry hentry
  cases hentry

/-- A drain does nothing to the cache. -/
theorem memory_drain (x : TimelineSession) (bump : Bool) (d : ItemDrain) :
    (x.drain codec statusPayload currentUid bump d).2.memory = x.memory := by
  unfold TimelineSession.drain
  split
  · rfl
  · rfl

theorem entry_of_finishSync
    {m : Memory} {events : List SdkEvent}
    (h : (m.finishSync events).channelMessageCache key = some entry) :
    m.channelMessageCache key = some entry := by
  change (m.invalidateCacheForEvents events).channelMessageCache key = some entry at h
  rcases channelMessageCache_invalidateForEvents m events key with hnone | ⟨heq, -⟩
  · cases hnone.symm.trans h
  · exact heq.symm.trans h

/-- A command puts no entry into the cache. -/
theorem entry_of_command
    {c : TimelineCommand}
    (h : (x.command codec statusPayload currentUid env c).memory.channelMessageCache key =
      some entry) :
    x.memory.channelMessageCache key = some entry := by
  have hperform : ∀ {α : Type} {op : StoreM α}
      {invalidates : α → Option ChannelCacheKey},
      (x.perform env op invalidates).memory.channelMessageCache key = some entry →
        x.memory.channelMessageCache key = some entry := by
    intro α op invalidates h
    unfold TimelineSession.perform at h
    split at h
    · rename_i a s' hrun
      dsimp only at h
      cases hinv : invalidates a with
      | none =>
          rw [hinv] at h
          exact h
      | some key' =>
          rw [hinv] at h
          simp only [Option.elim, channelMessageCache_evict] at h
          split at h
          · cases h
          · exact h
    · exact h
  cases c with
  | enqueueAndApplySyncItems entityType scope items bump d =>
      change (x.enqueueAndApplySyncItems codec statusPayload currentUid entityType scope
        items bump d).memory.channelMessageCache key = some entry at h
      unfold TimelineSession.enqueueAndApplySyncItems at h
      dsimp only at h
      split at h
      · rename_i events x' hdrain
        have hmemory := (congrArg (fun r => r.2.memory) hdrain).symm.trans
          (memory_drain _ bump d)
        have hentry := entry_of_finishSync h
        rw [hmemory] at hentry
        exact hentry
      · rename_i x' hdrain
        have hmemory := (congrArg (fun r => r.2.memory) hdrain).symm.trans
          (memory_drain _ bump d)
        rw [hmemory] at h
        exact h
  | syncEntities pull d cursorSaved =>
      change (x.syncEntities codec statusPayload currentUid pull d
        cursorSaved).memory.channelMessageCache key = some entry at h
      unfold TimelineSession.syncEntities at h
      dsimp only at h
      split at h
      · split at h
        · rename_i events x' hdrain
          have hmemory := (congrArg (fun r => r.2.memory) hdrain).symm.trans
            (memory_drain _ false d)
          split at h
          · have hentry := entry_of_finishSync h
            rw [hmemory] at hentry
            exact hentry
          · rw [hmemory] at h
            exact h
        · rename_i x' hdrain
          have hmemory := (congrArg (fun r => r.2.memory) hdrain).symm.trans
            (memory_drain _ false d)
          rw [hmemory] at h
          exact h
      · exact h
  | _ =>
      exact hperform h

/-- A command that leaves no cached channel stale keeps the entries in sync. -/
theorem inSync_command
    {c : TimelineCommand} (hx : x.InSync)
    (hsound : ∀ key,
      c.stale codec statusPayload currentUid env x.receivePipeline x.store key →
        x.memory.channelMessageCache key = none) :
    (x.command codec statusPayload currentUid env c).InSync := by
  intro key entry hentry
  have hbefore := entry_of_command hentry
  have hfresh : ¬ c.stale codec statusPayload currentUid env x.receivePipeline x.store
      key := by
    intro hstale
    exact absurd (hbefore.symm.trans (hsound key hstale)) (by simp)
  rcases keptOrGone_command hfresh with hnone | ⟨-, htimeline⟩
  · exact absurd (hnone.symm.trans hentry) (by simp)
  · rw [htimeline]
    exact hx key entry hbefore

/-- A query whose page is cut at its end keeps the entries in sync. -/
theorem inSync_query
    {limit offset : Nat} (hx : x.InSync)
    (hstorable : x.Storable cacheConfig key limit offset) :
    (x.step codec statusPayload currentUid cacheConfig
      (.query key limit offset)).InSync := by
  intro k entry hentry
  change (x.query cacheConfig key limit offset).2.channelMessageCache k =
    some entry at hentry
  unfold TimelineSession.query Memory.queryTimelineSnapshot at hentry
  cases hcached : x.memory.snapshotFromCache cacheConfig key limit offset with
  | some found =>
      obtain ⟨snapshot, m'⟩ := found
      obtain ⟨-, -, rfl, -⟩ := snapshotFromCache_eq_some hcached
      rw [hcached] at hentry
      exact hx k entry hentry
  | none =>
      rw [hcached] at hentry
      dsimp only at hentry
      split at hentry
      · rename_i hoffset
        rcases entry_storeChannelCache hentry with
          hbefore | ⟨rfl, config, hconfig, hmessages, hflag⟩
        · exact hx k entry hbefore
        · have hempty := snapshotFromCache_eq_none hcached hoffset (by rw [hconfig]; rfl)
          have hfits := hstorable hempty hoffset config hconfig
          have hpage := x.store.timelinePage_zero k limit
          subst hoffset
          obtain ⟨hrows, hmore⟩ := Prod.mk.injEq .. ▸ hpage
          rw [hrows] at hmessages
          rw [hmore] at hflag
          have hbegin := hmessages ▸ filled_of_fits hfits
          refine ⟨hbegin.trans (List.take_prefix _ _), ?_⟩
          intro htrue
          have hlimit : max limit 1 < (x.store.timeline k).length := by
            simpa using hflag.symm.trans htrue
          have hlen := hbegin.length_le
          change entry.messages.length < (x.store.timeline k).length
          rw [List.length_take] at hlen
          omega
      · exact hx k entry hentry

/-- With entries in sync, a query is answered rightly iff its entry reaches so far. -/
theorem answers_iff
    {limit offset : Nat} (hx : x.InSync) :
    x.Answers cacheConfig (.query key limit offset) ↔
      x.Answerable cacheConfig key limit offset := by
  change ((x.query cacheConfig key limit offset).1.messages,
    (x.query cacheConfig key limit offset).1.hasMoreBefore) = _ ↔ _
  unfold TimelineSession.query Memory.queryTimelineSnapshot
  cases hcached : x.memory.snapshotFromCache cacheConfig key limit offset with
  | some found =>
      obtain ⟨snapshot, m'⟩ := found
      obtain ⟨rfl, hconfig, -, entry, hentry, hne, rfl⟩ :=
        snapshotFromCache_eq_some hcached
      obtain ⟨hbegin, hmore⟩ := hx key entry hentry
      rw [Store.timelinePage_zero]
      constructor
      · intro hanswer entry' hentry' _ _ _
        cases hentry.symm.trans hentry'
        exact (Session.ChannelMessageCache.reaches_iff hbegin hmore).mpr hanswer
      · intro hable
        exact (Session.ChannelMessageCache.reaches_iff hbegin hmore).mp
          (hable entry hentry hne rfl hconfig)
  | none =>
      constructor
      · intro _ entry hentry hne hoffset hconfig
        exact absurd (snapshotFromCache_eq_none hcached hoffset hconfig entry hentry)
          hne
      · intro _
        rfl

/--
In a run whose commands leave no cached channel stale and whose queries stay within
what the cache holds, every query is answered as from the store.  So is a query
behind the run, exactly if it stays within what the cache holds.
-/
theorem timeline_answers
    (cacheConfig : Option MessageCachePolicyConfig) (codec : Codec)
    (statusPayload : Json → MessageStatusSyncPayload) (currentUid : Option Nat)
    (s : Store) (p : ReceivePipeline ItemPayload) (es : List TimelineEvent)
    (hok : Guarded (TimelineSession.step codec statusPayload currentUid cacheConfig)
      (TimelineSession.Sound codec statusPayload currentUid cacheConfig)
      (.fresh s p) es) :
    Guarded (TimelineSession.step codec statusPayload currentUid cacheConfig)
        (TimelineSession.Answers cacheConfig) (.fresh s p) es ∧
      ∀ key limit offset,
        (run (TimelineSession.step codec statusPayload currentUid cacheConfig)
            (.fresh s p) es).Answers cacheConfig (.query key limit offset) ↔
          (run (TimelineSession.step codec statusPayload currentUid cacheConfig)
            (.fresh s p) es).Answerable cacheConfig key limit offset := by
  have hstep : ∀ (x : TimelineSession) (e : TimelineEvent), x.InSync →
      x.Sound codec statusPayload currentUid cacheConfig e →
        (x.step codec statusPayload currentUid cacheConfig e).InSync ∧
          x.Answers cacheConfig e := by
    intro x e hx hsound
    cases e with
    | command env c =>
        exact ⟨inSync_command hx hsound, trivial⟩
    | query key limit offset =>
        exact ⟨inSync_query hx hsound.2, (answers_iff hx).mpr hsound.1⟩
  refine ⟨hok.entails TimelineSession.InSync hstep (inSync_fresh s p), ?_⟩
  intro key limit offset
  have hsync := hok.invariant TimelineSession.InSync
    (fun x e hx hsound => (hstep x e hx hsound).1) (inSync_fresh s p)
  exact answers_iff hsync

/-- `MessageCachePolicyConfig::default`. -/
def defaultMessageCachePolicyConfig : MessageCachePolicyConfig where
  perChannelBudgetBytes := 64 * 1024
  globalBudgetBytes := 8 * 1024 * 1024
  minMessages := 10
  maxMessages := 200

def sampleKey : ChannelCacheKey where
  channelId := 10
  channelType := 1

/-- A message of the server. -/
def samplePushedItem : SyncEntityItem ItemPayload where
  entityId := "900"
  version := 1
  deleted := false
  payload := some (.message
    { MessageSyncPayload.default with
      serverMessageId := some 900
      channelId := some 10
      channelType := some 1
      fromUid := some 2
      content := some "three" })

/-- The status of that message. -/
def sampleStatusItem : SyncEntityItem ItemPayload where
  entityId := "900"
  version := 2
  deleted := false
  payload := some (.value (.obj []))

def sampleStatusPayload (_ : Json) : MessageStatusSyncPayload :=
  { MessageStatusSyncPayload.default with
    channelId := some 10
    channelType := some 1
    status := some 5 }

/-- The step of a session of user 1. -/
def sampleStep (config : MessageCachePolicyConfig) :
    TimelineSession → TimelineEvent → TimelineSession :=
  TimelineSession.step sampleCodec sampleStatusPayload (some 1) (some config)

def sampleDrain : ItemDrain where
  envs _ := .calm 7
  droppedAfter := none

/-- A message, whose thumbnail arrives before the channel is read; and a pushed one. -/
def sampleTimeline : List TimelineEvent :=
  [.command (.calm 5) (.createLocalMessage (.text 10 1 "one") 11),
    .command (.calm 6) (.updateThumbStatus 1 1),
    .query sampleKey 20 0,
    .command (.calm 7) (.enqueueAndApplySyncItems "message" none [samplePushedItem] true
      sampleDrain),
    .query sampleKey 50 0]

theorem timeline_answers_sample :
    Guarded (sampleStep defaultMessageCachePolicyConfig)
      (TimelineSession.Answers (some defaultMessageCachePolicyConfig))
      (.fresh Store.empty (.new 8192)) sampleTimeline := by
  refine (timeline_answers _ sampleCodec sampleStatusPayload (some 1) Store.empty
    (.new 8192) sampleTimeline ⟨?_, ?_, ?_, ?_, ?_, trivial⟩).1
  · intro key hstale
    exact hstale.elim
  · intro key _
    rw [Option.eq_none_iff_forall_ne_some]
    intro entry hentry
    cases entry_of_command hentry
  · exact ⟨by decide +kernel, by decide +kernel⟩
  · intro key hstale
    refine absurd ⟨rfl, turnsReport_of_touch ⟨?_, trivial⟩ ⟨?_, trivial⟩ hstale.1⟩ hstale.2
    · decide +kernel
    · refine names_of_inserts rfl rfl ⟨?_, ?_⟩
      · decide +kernel
      · decide +kernel
  · exact ⟨by decide +kernel, by decide +kernel⟩

/--
The short page of an earlier query answers a longer one; a thumbnail status is
written behind the cache; a budget takes a large message out of the middle; and a status
of the server is written behind the cache.
-/
theorem timeline_answers_differ :
    ¬ (run (sampleStep defaultMessageCachePolicyConfig)
        (.fresh Store.empty (.new 8192))
        [.command (.calm 5) (.createLocalMessage (.text 10 1 "one") 11),
          .command (.calm 6) (.createLocalMessage (.text 10 1 "two") 12),
          .query sampleKey 1 0]).Answers (some defaultMessageCachePolicyConfig)
      (.query sampleKey 2 0) ∧
    ¬ (run (sampleStep defaultMessageCachePolicyConfig)
        (.fresh Store.empty (.new 8192))
        [.command (.calm 5) (.createLocalMessage (.text 10 1 "one") 11),
          .query sampleKey 20 0,
          .command (.calm 6) (.updateThumbStatus 1 1)]).Answers
      (some defaultMessageCachePolicyConfig) (.query sampleKey 20 0) ∧
    ¬ (run (sampleStep
          { defaultMessageCachePolicyConfig with
            minMessages := 1, perChannelBudgetBytes := 205 })
        (.fresh Store.empty (.new 8192))
        [.command (.calm 5) (.createLocalMessage (.text 10 1 "one") 11),
          .command (.calm 6) (.createLocalMessage (.text 10 1 "a larger one") 12),
          .command (.calm 7) (.createLocalMessage (.text 10 1 "two") 13),
          .query sampleKey 20 0]).Answers
      (some { defaultMessageCachePolicyConfig with
        minMessages := 1, perChannelBudgetBytes := 205 })
      (.query sampleKey 2 0) ∧
    ¬ (run (sampleStep defaultMessageCachePolicyConfig)
        (.fresh Store.empty (.new 8192))
        [.command (.calm 7) (.enqueueAndApplySyncItems "message" none [samplePushedItem] true
            sampleDrain),
          .query sampleKey 20 0,
          .command (.calm 8) (.enqueueAndApplySyncItems "message_status" none
            [sampleStatusItem] true sampleDrain)]).Answers
      (some defaultMessageCachePolicyConfig) (.query sampleKey 20 0) := by
  refine ⟨?_, ?_, ?_, ?_⟩
  all_goals decide +kernel

end Runs

end PrivchatSdk
