import Mathlib.Logic.Function.Basic
import PrivchatSdk.ReceivePipeline
import PrivchatSdk.Store.Change
import PrivchatSdk.SyncCoordinator

/-!
# What a session keeps in memory

Besides its pipeline of sync items a session keeps caches: timelines, presence,
seen room messages, subscriptions, messages to repair, the last sync call, events
to report.  None of them says whose it is; a session reads what it finds.

This module has the operations on them, with the message cache and its budget
as the source computes them.  What the local database does is a parameter.
-/

namespace PrivchatSdk
namespace Session

open Receive

universe u v w

section Types

structure ChannelCacheKey where
  channelId : Nat
  channelType : Int
  deriving DecidableEq, Repr

structure ChannelMessageCache where
  messages : List StoredMessage
  estimatedBytes : Nat
  hasMoreBefore : Bool
  deriving DecidableEq, Repr

structure MessageCachePolicyConfig where
  minMessages : Nat
  maxMessages : Nat
  perChannelBudgetBytes : Nat
  globalBudgetBytes : Nat
  deriving DecidableEq, Repr

structure TimelineSnapshot where
  messages : List StoredMessage
  newestMessageId : Option Nat
  oldestMessageId : Option Nat
  hasMoreBefore : Bool
  fromCache : Bool
  deriving DecidableEq, Repr

structure PresenceStatus where
  userId : Nat
  isOnline : Bool
  lastSeenAt : Int
  deviceCount : Nat
  version : Nat
  deriving DecidableEq, Repr

inductive ResumeFailureClass where
  | retryableTemporaryError
  | channelResyncRequired
  | entityResyncRequired
  | fullRebuildRequired
  | fatalProtocolError
  deriving DecidableEq, Repr

inductive ResumeEscalationScope where
  | retry
  | channelScopedResync
  | entityScopedResync
  | fullRebuild
  deriving DecidableEq, Repr

/--
The events that a session reports.  The error code of a failed resume is left out:
it is a function of the classification.
-/
inductive SdkEvent where
  | timelineUpdated (channelId : Nat) (channelType : Int) (messageId : Nat)
      (reason : String)
  | syncEntitiesApplied (entityType : String) (scope : Option String)
      (queued applied droppedDuplicates : Nat)
  | syncEntityChanged (entityType entityId : String) (deleted : Bool)
  | subscriptionMessageReceived (channelId : Nat) (topic : Option String)
      (payload : String) (publisher : Option String)
      (serverMessageId : Option Nat) (timestamp : Nat)
  | messageDelivered (channelId : Nat) (channelType : Int)
      (messageId serverMessageId : Nat) (deliveredAt : Int)
  | messageSendStatusChanged (messageId : Nat) (status : Int)
      (serverMessageId : Option Nat)
  | syncStateChanged (state : SyncStateSnapshot)
  | bootstrapCompleted (userId : Nat)
  | resumeSyncStarted
  | resumeSyncCompleted (entityTypesSynced channelsScanned channelsApplied
      channelFailures : Nat)
  | resumeSyncEscalated (classification : ResumeFailureClass)
      (scope : ResumeEscalationScope) (reason : String)
      (entityType : Option String)
  | resumeSyncFailed (classification : ResumeFailureClass)
      (scope : ResumeEscalationScope) (message : String)
  deriving DecidableEq, Repr

/-- `(channel_type, channel_id, server_message_id)` of a message to repair. -/
structure RepairKey where
  channelType : Int
  channelId : Nat
  serverMessageId : Nat
  deriving DecidableEq, Repr

/-- What `repair_message_projection` found. -/
inductive RepairOutcome where
  | repaired (messageId : Nat)
  | missing
  | failed
  deriving DecidableEq, Repr

end Types

section Frames

/-- What a page request of `sync_entities` brought. -/
inductive SyncReply (π : Type u) where
  | page (items : List (SyncEntityItem π))
  /-- The server no longer has the requested version: start again from zero. -/
  | restart
  deriving DecidableEq

/-- A call of `sync_entities` with the replies it gets. -/
structure SyncPull (π : Type u) where
  entityType : String
  scope : Option String
  replies : List (SyncReply π)
  /-- The last page came; otherwise a request failed after these replies. -/
  complete : Bool
  deriving DecidableEq

structure DeliveryReceipt where
  channelId : Nat
  channelType : Int
  serverMessageId : Nat
  deliveredAt : Int
  deriving DecidableEq, Repr

/-- One decoded push, by the branch of `handle_inbound_frame` that takes it. -/
inductive Push (π : Type u) where
  /-- An entity invalidation, which pulls the named families. -/
  | invalidation (pulls : List (SyncPull π))
  /--
  A canonical event whose target exists, with the put-off mutations of a new
  message that the database holds, which are applied after it.
  -/
  | commit (entityType : String) (scope : Option String)
      (item : SyncEntityItem π) (replayed : List (Entry π))
  /-- A canonical mutation that is put off until its target exists. -/
  | deferred (item : SyncEntityItem π)
  | deliveryReceipt (receipt : DeliveryReceipt)
  | friendEvent (peerUid : String)
  | statusItem (item : SyncEntityItem π)
  | message (item : SyncEntityItem π)
  deriving DecidableEq

/-- A decoded inbound frame. -/
inductive InboundFrame (π : Type u) where
  | pushes (messages : List (Push π))
  | presenceChanged (channelId : Nat) (snapshot : PresenceStatus)
      (payload : String) (publisher : Option String)
      (serverMessageId : Option Nat) (timestamp : Nat)
  | roomPublish (channelId : Nat) (topic : Option String) (payload : String)
      (publisher : Option String) (serverMessageId : Option Nat)
      (timestamp : Nat)
  | ignored
  deriving DecidableEq

end Frames

section Host

/--
What the operations ask of the local database and of the configuration: the
result of applying a batch, the rows of a timeline, and so on.  A value of `ω`
stands for the faults and the server replies met on the way.
-/
structure Host (σ : Type u) (π : Type v) (ω : Type w) where
  /-- `apply_sync_entities`. -/
  applySyncEntities : ω → σ → SyncBatch π → Bool → Except Unit (List SdkEvent) × σ
  /-- `save_sync_next_version` and the repair marker; whether it succeeded. -/
  saveSyncCursor : ω → σ → SyncPull π → Bool × σ
  /-- `defer_canonical_mutation_if_target_missing` that does defer. -/
  deferMutation : ω → σ → SyncEntityItem π → σ
  /-- `delete_pending_timeline_mutation` of a replayed one; whether it succeeded. -/
  deletePendingMutation : ω → σ → Entry π → Bool × σ
  /-- `mark_message_delivered`: the local row, if there is one. -/
  markMessageDelivered : ω → σ → DeliveryReceipt → Option Nat × σ
  /-- `list_messages`. -/
  listMessages : σ → ChannelCacheKey → Nat → Nat → List StoredMessage
  /-- `repair_message_projection` under its timeout. -/
  repairMessageProjection : ω → σ → RepairKey → RepairOutcome × σ
  /-- The user's database after `wipe_user_full`. -/
  wiped : σ
  cacheConfig : Option MessageCachePolicyConfig

end Host

section Memory

/--
The session-scoped memory beside the pipeline.  The maps are functions, and the
subscriptions are listed in the order they were made.
-/
structure Memory where
  activeSubscriptions : List ((Nat × Nat) × Option String)
  presenceCache : Nat → Option PresenceStatus
  roomSeenMsgIds : Nat → List Nat
  channelMessageCache : ChannelCacheKey → Option ChannelMessageCache
  channelCacheLru : List ChannelCacheKey
  channelCacheTotalBytes : Nat
  repairQueue : List RepairKey
  repairSeen : Finset RepairKey
  repairBackoff : RepairKey → Option (Nat × Nat)
  lastSyncQueued : Nat
  lastSyncDroppedDuplicates : Nat
  lastSyncEntityEvents : List SdkEvent
  pendingEvents : List SdkEvent

/-- The memory of a client that has just started. -/
def Memory.fresh : Memory where
  activeSubscriptions := []
  presenceCache := fun _ => none
  roomSeenMsgIds := fun _ => []
  channelMessageCache := fun _ => none
  channelCacheLru := []
  channelCacheTotalBytes := 0
  repairQueue := []
  repairSeen := ∅
  repairBackoff := fun _ => none
  lastSyncQueued := 0
  lastSyncDroppedDuplicates := 0
  lastSyncEntityEvents := []
  pendingEvents := []

/-- `clear_presence_cache`. -/
def Memory.clearPresenceCache (m : Memory) : Memory :=
  { m with presenceCache := fun _ => none }

/-- The memory that `reset_session_scoped_state` clears, field by field. -/
def Memory.resetSessionScopedState (m : Memory) : Memory :=
  let m := { m with activeSubscriptions := [] }
  let m := m.clearPresenceCache
  { m with
    roomSeenMsgIds := fun _ => []
    channelMessageCache := fun _ => none
    channelCacheLru := []
    channelCacheTotalBytes := 0
    repairQueue := []
    repairSeen := ∅
    repairBackoff := fun _ => none
    lastSyncQueued := 0
    lastSyncDroppedDuplicates := 0
    lastSyncEntityEvents := []
    pendingEvents := [] }

/-- Beside the pipeline the reset misses nothing. -/
theorem Memory.resetSessionScopedState_eq (m : Memory) :
    m.resetSessionScopedState = Memory.fresh := by
  rfl

/-- `update_presence_cache`: a newer version replaces an older one. -/
def Memory.updatePresenceCache (m : Memory) :
    List PresenceStatus → Memory
  | [] => m
  | item :: items =>
      let stale := (m.presenceCache item.userId).any
        (fun existing => decide (item.version ≤ existing.version))
      let m' := if stale then m
        else { m with presenceCache :=
          Function.update m.presenceCache item.userId (some item) }
      m'.updatePresenceCache items

/-- `batch_get_cached_presence`, without the final sort by user. -/
def Memory.batchGetCachedPresence (m : Memory) (userIds : List Nat) :
    List PresenceStatus :=
  userIds.filterMap m.presenceCache

def roomDedupWindow : Nat := 256

/-- `room_message_is_duplicate`. -/
def Memory.roomMessageIsDuplicate
    (m : Memory) (channelId : Nat) : Option Nat → Bool × Memory
  | none => (false, m)
  | some id =>
      let seen := m.roomSeenMsgIds channelId
      if id ∈ seen then
        (true, m)
      else
        let seen' := seen ++ [id]
        let kept := if roomDedupWindow < seen'.length then seen'.drop 1 else seen'
        (false, { m with roomSeenMsgIds :=
          Function.update m.roomSeenMsgIds channelId kept })

/-- The registry entry that `subscribe_channel` makes. -/
def Memory.subscribeChannel
    (m : Memory) (channelId channelType : Nat) (token : Option String) :
    Memory :=
  { m with activeSubscriptions :=
      m.activeSubscriptions.filter (fun s => s.1 ≠ (channelId, channelType)) ++
        [((channelId, channelType), token)] }

def Memory.unsubscribeChannel (m : Memory) (channelId channelType : Nat) :
    Memory :=
  { m with activeSubscriptions :=
      m.activeSubscriptions.filter (fun s => s.1 ≠ (channelId, channelType)) }

end Memory

section MessageCache

/-- `estimate_message_bytes`. -/
def estimateMessageBytes (message : StoredMessage) : Nat :=
  96 + message.content.utf8ByteSize + message.extra.utf8ByteSize

/-- `touch_cache_lru`. -/
def Memory.touchCacheLru (m : Memory) (key : ChannelCacheKey) : Memory :=
  { m with channelCacheLru := m.channelCacheLru.erase key ++ [key] }

/-- Take an entry out of the cache and its bytes off the total. -/
def Memory.dropCacheEntry (m : Memory) (key : ChannelCacheKey) : Memory :=
  match m.channelMessageCache key with
  | none => m
  | some removed =>
      { m with
        channelMessageCache := Function.update m.channelMessageCache key none
        channelCacheTotalBytes := m.channelCacheTotalBytes - removed.estimatedBytes }

/-- `evict_channel_cache`. -/
def Memory.evictChannelCache (m : Memory) (key : ChannelCacheKey) :
    Memory :=
  let m' := m.dropCacheEntry key
  { m' with channelCacheLru := m'.channelCacheLru.erase key }

/-- The loop of `enforce_global_cache_budget` over the least recently used. -/
def Memory.enforceGlobalCacheBudgetFrom (budget : Nat) :
    Memory → List ChannelCacheKey → Memory
  | m, [] => m
  | m, oldest :: lru =>
      if budget < m.channelCacheTotalBytes then
        enforceGlobalCacheBudgetFrom budget
          { m.dropCacheEntry oldest with channelCacheLru := lru } lru
      else
        m

/-- `enforce_global_cache_budget`. -/
def Memory.enforceGlobalCacheBudget
    (config : MessageCachePolicyConfig) (m : Memory) : Memory :=
  m.enforceGlobalCacheBudgetFrom config.globalBudgetBytes m.channelCacheLru

/--
The fill loop of `store_channel_cache`: the newest messages come first, and the
oldest of those taken leave while the channel is over its budget.
-/
def fillChannelCache
    (minMessages maxMessages perBudget : Nat) :
    List StoredMessage → Nat → List StoredMessage → List StoredMessage × Nat
  | deque, bytes, [] => (deque, bytes)
  | deque, bytes, message :: messages =>
      let (deque', bytes') := shrink (deque.length + 1)
        (deque ++ [message]) (bytes + estimateMessageBytes message)
      fillChannelCache minMessages maxMessages perBudget deque' bytes' messages
where
  /-- The inner `while`: at most as many pops as there are messages. -/
  shrink : Nat → List StoredMessage → Nat → List StoredMessage × Nat
    | 0, deque, bytes => (deque, bytes)
    | fuel + 1, deque, bytes =>
        if minMessages < deque.length ∧
            (maxMessages < deque.length ∨ perBudget < bytes) then
          match deque.getLast? with
          | none => (deque, bytes)
          | some old =>
              shrink fuel deque.dropLast (bytes - estimateMessageBytes old)
        else
          (deque, bytes)

/-- `store_channel_cache`. -/
def Memory.storeChannelCache
    (cacheConfig : Option MessageCachePolicyConfig) (m : Memory)
    (key : ChannelCacheKey) (messages : List StoredMessage)
    (hasMoreBefore : Bool) : Memory :=
  match cacheConfig with
  | none => m
  | some config =>
      if messages.isEmpty then
        m.evictChannelCache key
      else
        let maxMessages := max config.maxMessages 1
        let minMessages := max (min config.minMessages config.maxMessages) 1
        let (deque, bytes) := fillChannelCache minMessages maxMessages
          config.perChannelBudgetBytes [] 0 (messages.take maxMessages)
        let m' := m.evictChannelCache key
        let entry : ChannelMessageCache :=
          { messages := deque
            estimatedBytes := bytes
            hasMoreBefore := hasMoreBefore }
        let m'' := { m' with
          channelCacheTotalBytes := m'.channelCacheTotalBytes + bytes
          channelMessageCache :=
            Function.update m'.channelMessageCache key (some entry) }
        (m''.touchCacheLru key).enforceGlobalCacheBudget config

/-- `snapshot_from_cache`. -/
def Memory.snapshotFromCache
    (cacheConfig : Option MessageCachePolicyConfig) (m : Memory)
    (key : ChannelCacheKey) (limit offset : Nat) :
    Option (TimelineSnapshot × Memory) :=
  if offset ≠ 0 ∨ cacheConfig.isNone then
    none
  else
    match m.channelMessageCache key with
    | none => none
    | some entry =>
        let messages := entry.messages.take (max limit 1)
        if messages.isEmpty then
          none
        else
          some
            ({ messages := messages
               newestMessageId := messages.head?.map (fun r => r.messageId)
               oldestMessageId := messages.getLast?.map (fun r => r.messageId)
               hasMoreBefore := entry.hasMoreBefore ||
                 decide (messages.length < entry.messages.length)
               fromCache := true },
              m.touchCacheLru key)

/--
`query_timeline_snapshot`.  The generation it compares is never moved between
the two reads, so a page from offset zero is always stored.
-/
def Memory.queryTimelineSnapshot
    (cacheConfig : Option MessageCachePolicyConfig)
    (listMessages : ChannelCacheKey → Nat → Nat → List StoredMessage)
    (m : Memory) (key : ChannelCacheKey) (limit offset : Nat) :
    TimelineSnapshot × Memory :=
  match m.snapshotFromCache cacheConfig key limit offset with
  | some (snapshot, m') => (snapshot, m')
  | none =>
      let cap := max limit 1
      let rows := listMessages key (cap + 1) offset
      let page := rows.take cap
      let hasMoreBefore := decide (cap < rows.length)
      ({ messages := page
         newestMessageId := page.head?.map (fun r => r.messageId)
         oldestMessageId := page.getLast?.map (fun r => r.messageId)
         hasMoreBefore := hasMoreBefore
         fromCache := false },
        if offset = 0 then m.storeChannelCache cacheConfig key page hasMoreBefore
        else m)

/-- `invalidate_cache_for_events`. -/
def Memory.invalidateCacheForEvents (m : Memory) : List SdkEvent → Memory
  | [] => m
  | .timelineUpdated channelId channelType _ _ :: events =>
      (m.evictChannelCache
        { channelId := channelId, channelType := channelType })
        |>.invalidateCacheForEvents events
  | _ :: events => m.invalidateCacheForEvents events

/-- A sync call starts with no events of its own. -/
def Memory.startSync (m : Memory) : Memory :=
  { m with lastSyncEntityEvents := [] }

def Memory.countSync (m : Memory) (queued droppedDuplicates : Nat) : Memory :=
  { m with
    lastSyncQueued := queued
    lastSyncDroppedDuplicates := droppedDuplicates }

/-- A sync call that applied everything leaves its events to be reported. -/
def Memory.finishSync (m : Memory) (events : List SdkEvent) : Memory :=
  { m.invalidateCacheForEvents events with lastSyncEntityEvents := events }

end MessageCache

section Repairs

def repairQueueLimit : Nat := 64

def repairBatchLimit : Nat := 5

def repairBackoffBaseMs : Nat := 2000

def repairBackoffMaxShift : Nat := 6

/-- `enqueue_projection_repair` at the time `now`. -/
def Memory.enqueueProjectionRepair
    (m : Memory) (now : Nat) (key : RepairKey) : Memory :=
  if (m.repairBackoff key).any (fun b => decide (now < b.2)) then
    m
  else if key ∈ m.repairSeen then
    m
  else if repairQueueLimit ≤ m.repairQueue.length then
    m
  else
    { m with
      repairSeen := insert key m.repairSeen
      repairQueue := m.repairQueue ++ [key] }

/-- `note_repair_failure`. -/
def Memory.noteRepairFailure
    (m : Memory) (now : Nat) (key : RepairKey) : Memory :=
  let attempts := (m.repairBackoff key).elim 0 Prod.fst + 1
  let delay := repairBackoffBaseMs * 2 ^ min attempts repairBackoffMaxShift
  { m with repairBackoff :=
      Function.update m.repairBackoff key (some (attempts, now + delay)) }

/-- `drain_projection_repairs`: the keys tried, at most `fuel` of them. -/
def Memory.drainProjectionRepairs
    {σ : Type v} (repair : σ → RepairKey → RepairOutcome × σ) (now : Nat) :
    Nat → σ → Memory → List (RepairKey × RepairOutcome) × σ × Memory
  | 0, store, m => ([], store, m)
  | fuel + 1, store, m =>
      match m.repairQueue with
      | [] => ([], store, m)
      | key :: queue =>
          let (outcome, store') := repair store key
          let m' := { m with
            repairQueue := queue
            repairSeen := m.repairSeen.erase key }
          let forget := { m' with
            repairBackoff := Function.update m'.repairBackoff key none }
          let m'' := match outcome with
            | .repaired _ => forget.evictChannelCache
                { channelId := key.channelId, channelType := key.channelType }
            | .missing => forget
            | .failed => m'.noteRepairFailure now key
          let (rest, store'', m''') :=
            m''.drainProjectionRepairs repair now fuel store'
          ((key, outcome) :: rest, store'', m''')

end Repairs

end Session
end PrivchatSdk
