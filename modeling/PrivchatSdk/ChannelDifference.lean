import Mathlib.Data.List.Sort
import PrivchatSdk.Lib.LogPages
import PrivchatSdk.ProjectionRepair
import PrivchatSdk.ReceiveKeys
import PrivchatSdk.Store.Outbox

/-!
# The difference of a channel and what writes beside it

The actor keeps a channel up to date with `resume_channel_difference`: it asks for
the commits behind a position, page by page, and applies one after the other.  A
mutation whose target is not stored is put aside until the target is.  Beside these
runs messages come in through pushes, acknowledgements and history pages.

The actor does one thing at a time.  `Task` says where it stands in what it does, and
a step goes to the next statement, so that every statement can fail and every call
can be dropped between two of them.  The columns of a channel row play no part.
-/

namespace PrivchatSdk
namespace Difference

open StatementExec RelTable Receive

section Items

/-- A channel of the server; its type is an unsigned byte. -/
structure Timeline where
  channelId : Nat
  channelType : Nat
  deriving DecidableEq, Repr

/-- `format!("{channel_type}:{channel_id}")`. -/
def Timeline.scope (t : Timeline) : String :=
  toString t.channelType ++ ":" ++ toString t.channelId

/-- The payload of a sync item before its branch decodes it. -/
inductive ItemPayload where
  | message (payload : MessageSyncPayload)
  | value (payload : Json)

def ItemPayload.asMessage : ItemPayload → Option MessageSyncPayload
  | .message payload => some payload
  | .value _ => none

def ItemPayload.asValue : ItemPayload → Option Json
  | .message _ => none
  | .value payload => some payload

/-- An item with its payload read in another way. -/
def readItem {π ρ : Type} (read : π → Option ρ) (item : SyncEntityItem π) :
    SyncEntityItem ρ where
  entityId := item.entityId
  version := item.version
  deleted := item.deleted
  payload := item.payload.bind read

/-- An item as it stands in the pipeline, under its entity type. -/
def queued {π : Type} (wrap : π → ItemPayload) (item : SyncEntityItem π) :
    SyncEntityItem ItemPayload :=
  readItem (fun p => some (wrap p)) item

/-- The entity type that an item comes with. -/
def itemType : SyncItem → String
  | .message _ => "message"
  | .messageExtra _ => "message_extra"
  | .messageReaction _ => "message_reaction"

def itemEntity : SyncItem → SyncEntityItem ItemPayload
  | .message item => queued .message item
  | .messageExtra item => queued .value item
  | .messageReaction item => queued .value item

/-- `apply_sync_entities` for one item of the batches of a timeline. -/
def applySyncEntity
    (codec : Codec) (currentUid : Option Nat) (entityType : String)
    (scope : Option String) (item : SyncEntityItem ItemPayload) : StoreM PUnit :=
  if entityType = "message" then
    codec.applyMessageItem currentUid scope (readItem ItemPayload.asMessage item)
  else if entityType = "message_extra" ∨ entityType = "message_ext" then
    codec.applyExtraItem scope (readItem ItemPayload.asValue item)
  else if entityType = "message_reaction" ∨ entityType = "reaction" then
    codec.applyReactionItem scope (readItem ItemPayload.asValue item)
  else
    pure .unit

end Items

section Pending

/-- `PendingTimelineMutation`; the event is there if its bytes decode. -/
structure PendingTimelineMutation where
  channelId : Nat
  channelType : Nat
  targetServerMessageId : Nat
  eventId : Nat
  pts : Nat
  canonicalEvent : Option CanonicalTimelineEvent

/-- The channel of a mutation. -/
def PendingTimelineMutation.timeline (m : PendingTimelineMutation) : Timeline where
  channelId := m.channelId
  channelType := m.channelType

/-- What `pending_timeline_mutation_key` prints. -/
def PendingTimelineMutation.key (m : PendingTimelineMutation) : Nat × Nat × Nat × Nat :=
  (m.channelType, m.channelId, m.targetServerMessageId, m.eventId)

/-- `put_pending_timeline_mutation`. -/
def putPendingTimelineMutation
    (pending : List PendingTimelineMutation) (m : PendingTimelineMutation) :
    List PendingTimelineMutation :=
  m :: pending.filter (fun m' => decide (m'.key ≠ m.key))

/-- `delete_pending_timeline_mutation`. -/
def deletePendingTimelineMutation
    (pending : List PendingTimelineMutation) (m : PendingTimelineMutation) :
    List PendingTimelineMutation :=
  pending.filter (fun m' => decide (m'.key ≠ m.key))

/-- The order of the replay: by `pts`, then by event id. -/
def replayedBefore (m m' : PendingTimelineMutation) : Prop :=
  m.pts < m'.pts ∨ m.pts = m'.pts ∧ m.eventId ≤ m'.eventId

instance : DecidableRel replayedBefore := by
  intro m m'
  unfold replayedBefore
  infer_instance

/-- `list_pending_timeline_mutations`. -/
def listPendingTimelineMutations
    (pending : List PendingTimelineMutation) (t : Timeline) (target : Nat) :
    List PendingTimelineMutation :=
  (pending.filter (fun m => m.channelId == t.channelId &&
    m.channelType == t.channelType &&
    m.targetServerMessageId == target)).insertionSort replayedBefore

/-- The message that a revoke or a reaction of a commit is about. -/
def mutationTarget (commit : ServerCommit) : Option Nat :=
  match commit.canonicalEvent with
  | some (.revoke target _ _) => some target
  | some (.reactionChange target _ _ _) => some target
  | _ => none

/-- The commit that a replay makes up for a mutation that was put aside. -/
def replayCommit (m : PendingTimelineMutation) (event : CanonicalTimelineEvent) :
    ServerCommit where
  eventId := some m.eventId
  pts := m.pts
  serverMsgId := m.eventId
  localMessageId := none
  channelId := m.channelId
  channelType := if m.channelType < 256 then m.channelType else 1
  messageType := ""
  content := .null
  serverTimestamp := 0
  senderId :=
    match event with
    | .newMessage .. => 0
    | .revoke _ revokedBy _ => revokedBy
    | .reactionChange _ actorId _ _ => actorId
  canonicalEvent := some event

end Pending

section MaxPts

/-- The row is a message of the channel. -/
def Timeline.has (t : Timeline) (r : MessageRow) : Bool :=
  r.channelId == t.channelId && r.channelType == (t.channelType : Int)

/-- `n as u64` of a signed number. -/
def asU64 (n : Int) : Nat :=
  (n % 2 ^ 64).toNat

/-- `max_message_pts`. -/
def maxMessagePts (t : Timeline) : StoreM Nat :=
  query "query max message pts" (fun s =>
    asU64 ((((s.message.rows.filter t.has).map (fun r => r.pts)).max?).getD 0))

end MaxPts

section Actor

/-- Where the loop over the commits of a page stands. -/
structure Page where
  timeline : Timeline
  lastPts : Nat
  pages : Nat
  commits : List ServerCommit
  hasMore : Bool
  rest : List ServerCommit

/-- Who applies a commit: a resume run or a push. -/
inductive Caller where
  | page (page : Page)
  | push

/-- The caller when the commit at the head of its page is done. -/
def Caller.behindCommit : Caller → Caller
  | .page p => .page { p with rest := p.rest.tail }
  | .push => .push

/-- What comes after the drain of `enqueue_and_apply_sync_items`. -/
inductive AfterApply where
  | commit (commit : ServerCommit) (caller : Caller)
  | mutation (m : PendingTimelineMutation) (rest : List PendingTimelineMutation)
      (caller : Caller)
  | pushes

/-- A drained batch with its items that are still to be applied. -/
abbrev OpenBatch : Type :=
  SyncBatch ItemPayload × List (SyncEntityItem ItemPayload)

/-- Where the actor stands. -/
inductive Task where
  | idle
  | fetch (timeline : Timeline) (lastPts pages : Nat)
  | page (page : Page)
  | apply (batches : List OpenBatch) (after : AfterApply)
  | replay (mutations : List PendingTimelineMutation) (caller : Caller)
  | reconcile (timeline : Timeline)

/-- Where the caller goes on. -/
def Caller.task : Caller → Task
  | .page p => .page p
  | .push => .idle

/-- An item that was applied without an error, and the store it was applied to. -/
structure Turn where
  entry : Entry ItemPayload
  before : Store

/--
The actor.  `completed` is the channel whose run returned `Ok` just now; `stores` and
`turns` record what has been.
-/
structure SyncActor where
  store : Store
  pendingMutations : List PendingTimelineMutation
  resumePts : Timeline → Option Nat
  receivePipeline : ReceivePipeline ItemPayload
  task : Task
  completed : Option Timeline
  stores : List Store
  turns : List Turn

/-- The actor of a new account. -/
def SyncActor.start (recentKeyLimit : Nat) : SyncActor where
  store := .empty
  pendingMutations := []
  resumePts _ := none
  receivePipeline := .new recentKeyLimit
  task := .idle
  completed := none
  stores := [.empty]
  turns := []

/-- What can fail in a step: statements, the key value tree, the last reconciliation. -/
structure Faults where
  env : Env
  kv : Bool
  reconcile : Bool

/-- No failure. -/
def Faults.calm (now : Int) : Faults where
  env := .calm now
  kv := false
  reconcile := false

/-- What the actor is asked to do when it is idle. -/
inductive Command where
  | resume (timeline : Timeline)
  | timelinePush (push : PushMessageRequest) (event : CanonicalTimelineEvent)
  | messagePushes (pushes : List PushMessageRequest)
  | createLocalMessage (input : NewMessage) (localMessageId : Nat)
  | outboxAckSent (messageId serverMessageId messageSeq : Nat)
  | markMessageSent (messageId serverMessageId messageSeq : Nat)
  | history (items : List MessageHistoryItem) (channelType : Nat)

/--
The answer to `get_difference`: the next commits of the log; or that the channel has
to start over, with the answers to the two requests that follow; or an error.
-/
inductive DifferenceReply where
  | page (count : Nat) (hasMore : Bool)
  | resyncRequired (currentPts : Option Nat)
      (history : Option (List MessageHistoryItem))
  | failed

/-- `cancel` is the drop of the future that is being awaited. -/
inductive SyncEvent where
  | command (c : Command)
  | reply (r : DifferenceReply)
  | proceed
  | cancel

namespace SyncActor

variable (codec : Codec) (currentUid : Option Nat)
variable (f : Faults) (a : SyncActor)

/-- Go on elsewhere. -/
def goto (task : Task) : SyncActor :=
  { a with task := task, completed := none }

/-- The call returns an error. -/
def failed : SyncActor :=
  a.goto .idle

/-- The run of a channel returns `Ok`. -/
def complete (t : Timeline) : SyncActor :=
  { a with task := .idle, completed := some t }

/-- Go on with another store. -/
def withStore (s : Store) : SyncActor :=
  { a with store := s, stores := s :: a.stores }

/-- `load_resume_channel_pts`: a failed read finds nothing. -/
def loadResumeChannelPts (t : Timeline) : Option Nat :=
  if f.kv then none else a.resumePts t

/-- The queue part of `enqueue_and_apply_sync_items`: enqueue and take everything out. -/
def enqueueAndDrain
    (entityType : String) (scope : Option String)
    (items : List (SyncEntityItem ItemPayload)) (after : AfterApply) : SyncActor :=
  let drained := drainBatches (a.receivePipeline.enqueue entityType scope items).2
  { a with receivePipeline := drained.2 }.goto
    (.apply (drained.1.map (fun batch => (batch, batch.items))) after)

/--
`defer_canonical_mutation_if_target_missing`: the pending mutations if the commit is
put aside.
-/
def deferCanonicalMutationIfTargetMissing (commit : ServerCommit) :
    Except Unit (Option (List PendingTimelineMutation)) :=
  match mutationTarget commit with
  | none => .ok none
  | some target =>
      match (getMessageIdByServerMessageId commit.channelId commit.channelType
          target f.env a.store).1 with
      | .error _ => .error ()
      | .ok (some _) => .ok none
      | .ok none =>
          match commit.eventId with
          | none => .ok none
          | some eventId =>
              if f.kv then
                .error ()
              else
                .ok (some (putPendingTimelineMutation a.pendingMutations
                  { channelId := commit.channelId
                    channelType := commit.channelType
                    targetServerMessageId := target
                    eventId := eventId
                    pts := commit.pts
                    canonicalEvent := commit.canonicalEvent }))

/-- One turn of the loop over the commits, and of a push. -/
def takeCommit (scope : String) (commit : ServerCommit) (caller : Caller) : SyncActor :=
  match a.deferCanonicalMutationIfTargetMissing f commit with
  | .error _ => a.failed
  | .ok (some pending) =>
      { a with pendingMutations := pending }.goto caller.behindCommit.task
  | .ok none =>
      let item := codec.syncItemFromDifferenceCommit commit
      a.enqueueAndDrain (itemType item) (some scope) [itemEntity item]
        (.commit commit caller)

/-- One item of a drained batch; an error puts the whole batch back. -/
def applyItem
    (batch : SyncBatch ItemPayload) (item : SyncEntityItem ItemPayload)
    (items : List (SyncEntityItem ItemPayload)) (batches : List OpenBatch)
    (after : AfterApply) : SyncActor :=
  match applySyncEntity codec currentUid batch.entityType batch.scope item f.env
      a.store with
  | (.ok _, s) =>
      { a.withStore s with
        turns :=
          { entry :=
              { entityType := batch.entityType, scope := batch.scope, item := item }
            before := a.store } :: a.turns }.goto
        (.apply ((batch, items) :: batches) after)
  | (.error _, s) =>
      { a.withStore s with
        receivePipeline := a.receivePipeline.requeueFront batch }.failed

/-- What the callers of `enqueue_and_apply_sync_items` do once it has returned. -/
def finishApply : AfterApply → SyncActor
  | .commit commit caller =>
      let item := codec.syncItemFromDifferenceCommit commit
      -- only a message that is not deleted can be the target of a mutation
      if itemType item = "message" ∧ (itemEntity item).deleted = false then
        if f.kv then
          a.failed
        else
          a.goto (.replay
            (listPendingTimelineMutations a.pendingMutations
              { channelId := commit.channelId, channelType := commit.channelType }
              commit.serverMsgId)
            caller.behindCommit)
      else
        a.goto caller.behindCommit.task
  | .mutation m rest caller =>
      if f.kv then
        a.failed
      else
        { a with
          pendingMutations := deletePendingTimelineMutation a.pendingMutations m }.goto
          (.replay rest caller)
  | .pushes => a.goto .idle

/-- One turn of the loop of `replay_pending_timeline_mutations`. -/
def replayMutation
    (m : PendingTimelineMutation) (rest : List PendingTimelineMutation)
    (caller : Caller) : SyncActor :=
  match m.canonicalEvent with
  | none => a.failed
  | some event =>
      let item := codec.syncItemFromDifferenceCommit (replayCommit m event)
      a.enqueueAndDrain (itemType item) (some m.timeline.scope) [itemEntity item]
        (.mutation m rest caller)

/-- The end of a page: the position behind it is saved. -/
def endPage (page : Page) : SyncActor :=
  let nextLastPts := LogPages.nextPosition ServerCommit.pts page.lastPts page.commits
  if nextLastPts ≤ page.lastPts then
    a.goto (.reconcile page.timeline)
  else if f.kv then
    a.failed
  else
    { a with
      resumePts := Function.update a.resumePts page.timeline (some nextLastPts) }.goto
      (if page.hasMore then .fetch page.timeline nextLastPts page.pages
      else .reconcile page.timeline)

/-- The next statement of what the actor is at. -/
def proceed : SyncActor :=
  match a.task with
  | .idle => a
  | .fetch .. => a
  | .page page =>
      match page.rest with
      | commit :: _ =>
          a.takeCommit codec f page.timeline.scope commit (.page page)
      | [] => a.endPage f page
  | .apply [] after => a.finishApply codec f after
  | .apply ((_, []) :: batches) after => a.goto (.apply batches after)
  | .apply ((batch, item :: items) :: batches) after =>
      a.applyItem codec currentUid f batch item items batches after
  | .replay [] caller => a.goto caller.task
  | .replay (m :: rest) caller => a.replayMutation codec m rest caller
  | .reconcile t => if f.reconcile then a.failed else a.complete t

/-- `store_history_items` with the type of the channel normalized. -/
def storeHistory (items : List MessageHistoryItem) (channelType : Nat) : SyncActor :=
  a.withStore ((codec.storeHistoryItems currentUid items
    (if channelType = 0 then 1 else channelType)).after f.env a.store)

/-- `resume_channel_difference` up to the first request. -/
def resume (t : Timeline) : SyncActor :=
  match (maxMessagePts t f.env a.store).1 with
  | .error _ => a.failed
  | .ok pts =>
      a.goto (.fetch t
        (match a.loadResumeChannelPts f t with
        | some cursorPts => max pts cursorPts
        | none => pts) 0)

/-- A call from outside. -/
def command : Command → SyncActor
  | .resume t => a.resume f t
  | .timelinePush push event =>
      a.takeCommit codec f
        ({ channelId := push.channelId, channelType := push.channelType } :
          Timeline).scope
        (canonicalPushCommit push event) .push
  | .messagePushes pushes =>
      a.enqueueAndDrain "message" none
        (pushes.map (fun push => queued .message (codec.pushMessageToSyncItem push)))
        .pushes
  | .createLocalMessage input localMessageId =>
      (a.withStore ((PrivchatSdk.createLocalMessage input localMessageId).after f.env
        a.store)).goto .idle
  | .outboxAckSent messageId serverMessageId messageSeq =>
      (a.withStore ((PrivchatSdk.outboxAckSent messageId serverMessageId
        messageSeq).after f.env a.store)).goto .idle
  | .markMessageSent messageId serverMessageId messageSeq =>
      (a.withStore ((PrivchatSdk.markMessageSent messageId serverMessageId
        messageSeq).after f.env a.store)).goto .idle
  | .history items channelType =>
      (a.storeHistory codec currentUid f items channelType).goto .idle

/--
An answer to the request of a run.  A channel that has to start over gets its new
position first and its history afterwards; a history that fails counts as empty.
-/
def receive (log : Timeline → List ServerCommit) (r : DifferenceReply) : SyncActor :=
  match a.task with
  | .fetch t lastPts pages =>
      if 64 < pages + 1 then
        a.failed
      else
        match r with
        | .failed => a.failed
        | .page count hasMore =>
            let commits := (LogPages.behind ServerCommit.pts (log t) lastPts).take count
            if commits.isEmpty then
              a.goto (.reconcile t)
            else
              a.goto (.page
                { timeline := t
                  lastPts := lastPts
                  pages := pages + 1
                  commits := commits
                  hasMore := hasMore
                  rest := commits })
        | .resyncRequired none _ => a.failed
        | .resyncRequired (some currentPts) history =>
            if f.kv then
              a.failed
            else
              let saved :=
                { a with resumePts := Function.update a.resumePts t (some currentPts) }
              match history with
              | none => saved.complete t
              | some items =>
                  (saved.storeHistory codec currentUid f items t.channelType).complete t
  | _ => a

/-- One step of the actor, with what fails in it. -/
def step (log : Timeline → List ServerCommit) (a : SyncActor) (e : Faults × SyncEvent) :
    SyncActor :=
  match e.2 with
  | .command c =>
      match a.task with
      | .idle => a.command codec currentUid e.1 c
      | _ => a
  | .reply r => a.receive codec currentUid e.1 log r
  | .proceed => a.proceed codec currentUid e.1
  | .cancel => a.failed

end SyncActor

end Actor

end Difference
end PrivchatSdk
