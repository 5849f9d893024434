import PrivchatSdk.Lib.Run
import PrivchatSdk.SyncBranches

/-!
# Inbound frames that fail

A frame brings one push or a batch of them.  Some pushes are applied where they
stand; messages, read cursors and delivery receipts are collected and applied
after the loop.  The frames that came before the login are taken from their
buffer at once and handled one after the other.

Both loops are left at the first error, and so is the application of the collected
messages, behind what still waits in the pipeline.  So the replay hands on every frame
exactly when no frame but the last one fails, and a batch loses nothing exactly
when no push fails, or only the last one does and nothing was collected, and no item
that waits or is new fails to be applied (`inbound_keeps_iff`).

What a pull of an invalidation does, and fails at, is left open: to the messages of its
batch it is just another push.
-/

namespace PrivchatSdk

open StatementExec EventRun Receive Session
open Difference (Faults ItemPayload PendingTimelineMutation itemEntity itemType queued)

section Model

inductive MessageType
  | sendMessageRequest
  | pushMessageRequest
  | pushBatchRequest
  | publishRequest
  | other
  deriving DecidableEq, Repr

inductive InboundError
  | serialization (text : String)
  | store (e : StoreError)
  | pendingMutations
  | request (text : String)

/-- What a frame works on; `rest` are the other tables and the memory. -/
structure InboundState (τ : Type) where
  store : Store
  pendingMutations : List PendingTimelineMutation
  receivePipeline : ReceivePipeline ItemPayload
  rest : τ

/--
What a canonical push meets: when it is put aside, when its item is applied, and with
the mutations that waited for its message.  A flag is a failure of the key value tree.
-/
structure CanonicalEnv where
  defer : Faults
  items : Nat → Env
  listPending : Bool
  mutations : Nat → (Nat → Env) × Bool

/--
The user, and what a frame meets: its pushes by their place, its items and receipts one
after the other.
-/
structure FrameEnv where
  currentUserId : Option Nat
  pushes : Nat → CanonicalEnv
  messages : Nat → Env
  cursors : Nat → Env
  receipts : Nat → Env

variable {τ δ ρ π κ : Type}

/-- What the handling of a push asks of the protocol and of the other pushes. -/
structure PushOps (τ π κ : Type) where
  codec : Codec
  statusPayload : Json → MessageStatusSyncPayload
  /-- The pulls of an entity invalidation; a malformed one has none. -/
  entityInvalidationPullKeys : π → Option κ
  pullEntities : InboundState τ → κ → Except InboundError Nat × InboundState τ
  /-- The event of a canonical push; its payload may not decode. -/
  canonicalTimelineEvent : π → Option (Except InboundError CanonicalTimelineEvent)
  pushMessageToFriendEvent : π → Option Nat
  pushMessageToStatusSyncItem : π → Option (SyncEntityItem ItemPayload)
  pushMessageToDeliveryReceipt : π → Option DeliveryReceipt
  /-- The push as the adapter of messages reads it. -/
  request : π → PushMessageRequest
  pushEvent : τ → SdkEvent → τ

/-- The branch that takes a push. -/
inductive PushClass (κ : Type)
  | invalidation (pulls : κ)
  | canonical (event : Except InboundError CanonicalTimelineEvent)
  | friendEvent (peerUid : Nat)
  | status (item : SyncEntityItem ItemPayload)
  | receipt (receipt : DeliveryReceipt)
  | message (item : SyncEntityItem ItemPayload)

/-- The branches in their order. -/
def PushOps.classify (ops : PushOps τ π κ) (push : π) : PushClass κ :=
  match ops.entityInvalidationPullKeys push with
  | some pulls => .invalidation pulls
  | none =>
      match ops.canonicalTimelineEvent push with
      | some event => .canonical event
      | none =>
          match ops.pushMessageToFriendEvent push with
          | some peerUid => .friendEvent peerUid
          | none =>
              match ops.pushMessageToStatusSyncItem push with
              | some item => .status item
              | none =>
                  match ops.pushMessageToDeliveryReceipt push with
                  | some receipt => .receipt receipt
                  | none =>
                      .message (queued .message
                        (ops.codec.pushMessageToSyncItem (ops.request push)))

def PushOps.pushTo
    (ops : PushOps τ π κ) (state : InboundState τ) (event : SdkEvent) :
    InboundState τ :=
  { state with rest := ops.pushEvent state.rest event }

section Canonical

variable (ops : PushOps τ π κ) (currentUserId : Option Nat)

/-- `enqueue_and_apply_sync_items`. -/
def PushOps.enqueueAndApply
    (envs : Nat → Env) (state : InboundState τ) (entityType : String)
    (scope : Option String) (items : List (SyncEntityItem ItemPayload)) :
    Except InboundError Nat × InboundState τ :=
  match ops.codec.enqueueAndApplySyncItems ops.statusPayload currentUserId true envs
      entityType scope items state.receivePipeline state.store with
  | (.ok (applied, _), p, s) =>
      (.ok applied, { state with store := s, receivePipeline := p })
  | (.error e, p, s) =>
      (.error (.store e), { state with store := s, receivePipeline := p })

/-- The loop of `replay_pending_timeline_mutations`. -/
def PushOps.replayMutations :
    (Nat → (Nat → Env) × Bool) → InboundState τ → List PendingTimelineMutation →
      Except InboundError Nat × InboundState τ
  | _, state, [] => (.ok 0, state)
  | envs, state, m :: mutations =>
      match m.canonicalEvent with
      | none => (.error (.serialization "decode pending mutation"), state)
      | some event =>
          let item :=
            ops.codec.syncItemFromDifferenceCommit (Difference.replayCommit m event)
          match ops.enqueueAndApply currentUserId (envs 0).1 state (itemType item)
              (some m.timeline.scope) [itemEntity item] with
          | (.error e, state') => (.error e, state')
          | (.ok count, state') =>
              if (envs 0).2 then
                (.error .pendingMutations, state')
              else
                let pending :=
                  Difference.deletePendingTimelineMutation state'.pendingMutations m
                match PushOps.replayMutations (fun i => envs (i + 1))
                    { state' with pendingMutations := pending } mutations with
                | (.error e, state'') => (.error e, state'')
                | (.ok applied, state'') => (.ok (count + applied), state'')

/-- The actor of the account, as far as `state` has it. -/
def InboundState.actor (state : InboundState τ) : Difference.SyncActor :=
  { Difference.SyncActor.start 0 with
    store := state.store
    pendingMutations := state.pendingMutations }

/-- `apply_canonical_timeline_push`, once the event is decoded. -/
def PushOps.applyCanonicalTimelinePush
    (env : CanonicalEnv) (state : InboundState τ) (push : PushMessageRequest)
    (event : CanonicalTimelineEvent) : Except InboundError Nat × InboundState τ :=
  let commit := canonicalPushCommit push event
  let timeline : Difference.Timeline :=
    { channelId := commit.channelId, channelType := commit.channelType }
  match state.actor.deferCanonicalMutationIfTargetMissing env.defer commit with
  | .error _ => (.error .pendingMutations, state)
  | .ok (some pending) => (.ok 0, { state with pendingMutations := pending })
  | .ok none =>
      let item := ops.codec.syncItemFromDifferenceCommit commit
      match ops.enqueueAndApply currentUserId env.items state (itemType item)
          (some timeline.scope) [itemEntity item] with
      | (.error e, state') => (.error e, state')
      | (.ok applied, state') =>
          if itemType item = "message" ∧ (itemEntity item).deleted = false then
            if env.listPending then
              (.error .pendingMutations, state')
            else
              match ops.replayMutations currentUserId env.mutations state'
                  (Difference.listPendingTimelineMutations state'.pendingMutations timeline
                    commit.serverMsgId) with
              | (.error e, state'') => (.error e, state'')
              | (.ok replayed, state'') => (.ok (applied + replayed), state'')
          else
            (.ok applied, state')

end Canonical

/--
The work on a frame: the pushes taken so far, those of them that were applied or put
aside as canonical events, and what they left to apply.
-/
structure Collected (τ π : Type) where
  state : InboundState τ
  taken : List π
  canonical : List π
  messageItems : List (SyncEntityItem ItemPayload)
  readCursorItems : List (SyncEntityItem ItemPayload)
  deliveryReceipts : List DeliveryReceipt
  directApplied : Nat

def Collected.start (state : InboundState τ) : Collected τ π where
  state := state
  taken := []
  canonical := []
  messageItems := []
  readCursorItems := []
  deliveryReceipts := []
  directApplied := 0

/-- What was applied directly, or its error. -/
def Collected.direct (c : Collected τ π) (r : Except InboundError Nat × InboundState τ) :
    Except InboundError Unit × Collected τ π :=
  match r with
  | (.ok applied, state) =>
      (.ok (), { c with state := state, directApplied := c.directApplied + applied })
  | (.error e, state) => (.error e, { c with state := state })

/-- One push gets its turn. -/
def Collected.take
    (ops : PushOps τ π κ) (env : FrameEnv) (c : Collected τ π) (push : π) :
    Except InboundError Unit × Collected τ π :=
  let canonicalEnv := env.pushes c.taken.length
  let c := { c with taken := c.taken ++ [push] }
  match ops.classify push with
  | .invalidation pulls => c.direct (ops.pullEntities c.state pulls)
  | .canonical (.error e) => (.error e, c)
  | .canonical (.ok event) =>
      match ops.applyCanonicalTimelinePush env.currentUserId canonicalEnv c.state
          (ops.request push) event with
      | (.error e, state) => (.error e, { c with state := state })
      | (.ok applied, state) =>
          (.ok (), { c with
            state := state
            canonical := c.canonical ++ [push]
            directApplied := c.directApplied + applied })
  | .friendEvent peerUid =>
      (.ok (), { c with
        state := ops.pushTo c.state (.syncEntityChanged "friend" (toString peerUid) false) })
  | .status item => (.ok (), { c with readCursorItems := c.readCursorItems ++ [item] })
  | .receipt receipt =>
      (.ok (), { c with deliveryReceipts := c.deliveryReceipts ++ [receipt] })
  | .message item => (.ok (), { c with messageItems := c.messageItems ++ [item] })

/-- The loop over the pushes, left at the first error. -/
def Collected.takeAll (ops : PushOps τ π κ) (env : FrameEnv) :
    Collected τ π → List π → Except InboundError Unit × Collected τ π
  | c, [] => (.ok (), c)
  | c, push :: pushes =>
      match c.take ops env push with
      | (.ok (), c') => Collected.takeAll ops env c' pushes
      | (.error e, c') => (.error e, c')

/--
A call of `enqueue_and_apply_sync_items`: the items, those of them that the pipeline
took, and those that were applied.
-/
structure SyncCall where
  entityType : String
  items : List (SyncEntityItem ItemPayload)
  accepted : List (Entry ItemPayload)
  applied : List (Entry ItemPayload)

/-- What became of a frame, with the items and receipts that went on to be applied. -/
structure FrameRun (τ π : Type) where
  result : Except InboundError Nat
  state : InboundState τ
  taken : List π
  canonical : List π
  syncs : List SyncCall
  receipts : List DeliveryReceipt

/-- The loop over the delivery receipts; a database error counts as no row. -/
def PushOps.deliver (ops : PushOps τ π κ) :
    (Nat → Env) → InboundState τ → List DeliveryReceipt → InboundState τ
  | _, state, [] => state
  | envs, state, receipt :: receipts =>
      match markMessageDelivered receipt.serverMessageId receipt.deliveredAt (envs 0)
          state.store with
      | (.ok (some messageId), store) =>
          PushOps.deliver ops (fun i => envs (i + 1))
            (ops.pushTo { state with store := store }
              (.messageDelivered receipt.channelId receipt.channelType messageId
                receipt.serverMessageId receipt.deliveredAt)) receipts
      | (_, store) =>
          PushOps.deliver ops (fun i => envs (i + 1)) { state with store := store } receipts

variable (ops : PushOps τ π κ) (env : FrameEnv)

/-- The turns of a call: what waits in the pipeline, and the items that it takes. -/
def InboundState.turns
    (state : InboundState τ) (envs : Nat → Env) (entityType : String)
    (items : List (SyncEntityItem ItemPayload)) : List (Env × Entry ItemPayload) :=
  drainTurns envs entityType none items state.receivePipeline

/-- The collected items of one kind, if there are any. -/
def PushOps.syncCollected
    (envs : Nat → Env) (state : InboundState τ) (entityType : String)
    (items : List (SyncEntityItem ItemPayload)) :
    Except InboundError Nat × InboundState τ × List SyncCall :=
  if items.isEmpty then
    (.ok 0, state, [])
  else
    let call : SyncCall :=
      { entityType := entityType
        items := items
        accepted := acceptedEntries state.receivePipeline entityType none items
        applied := (ops.codec.appliedTurns ops.statusPayload env.currentUserId true
          (state.turns envs entityType items) state.store).drop
          state.receivePipeline.waiting.length }
    let (result, state') :=
      ops.enqueueAndApply env.currentUserId envs state entityType none items
    (result, state', [call])

/-- What `handle_inbound_frame` does after its `match`. -/
def Collected.finish (c : Collected τ π) : FrameRun τ π :=
  match ops.syncCollected env env.messages c.state "message" c.messageItems with
  | (.error e, state, syncs) => ⟨.error e, state, c.taken, c.canonical, syncs, []⟩
  | (.ok messages, state, syncs) =>
      match ops.syncCollected env env.cursors state "channel_read_cursor"
          c.readCursorItems with
      | (.error e, state', syncs') =>
          ⟨.error e, state', c.taken, c.canonical, syncs ++ syncs', []⟩
      | (.ok cursors, state', syncs') =>
          ⟨.ok (c.directApplied + messages + cursors),
            ops.deliver env.receipts state' c.deliveryReceipts, c.taken, c.canonical,
            syncs ++ syncs', c.deliveryReceipts⟩

/-- The pushes of one frame. -/
def PushOps.applyPushes (state : InboundState τ) (pushes : List π) : FrameRun τ π :=
  match Collected.takeAll ops env (.start state) pushes with
  | (.ok (), c) => c.finish ops env
  | (.error e, c) => ⟨.error e, c.state, c.taken, c.canonical, [], []⟩

structure PublishRequest (δ : Type) where
  channelId : Nat
  topic : Option String
  payload : δ
  publisher : Option String
  serverMessageId : Option Nat
  timestamp : Nat

/-- The frames of the protocol, and what is done with those that carry no push. -/
structure FrameOps (τ δ ρ π κ : Type) extends PushOps τ π κ where
  messageType : Nat → MessageType
  decodeSendMessage : δ → Except String ρ
  decodePush : δ → Except String π
  decodeBatch : δ → Except String (List π)
  decodePublish : δ → Except String (PublishRequest δ)
  /-- The echo of an own message, for the channel's type in the database. -/
  sendMessageToSyncItem :
    InboundState τ → ρ → Except InboundError (Option (SyncEntityItem ItemPayload))
  /-- A room broadcast: presence, the duplicate window, and the event. -/
  roomPublish : τ → PublishRequest δ → τ
  skipInboundMaterialization : Bool

/-- The client between a connection and its login; `ahead` is what its frames will meet. -/
structure InboundSession (τ δ : Type) where
  currentUid : Option String
  pendingPreloginInboundFrames : List (Nat × δ)
  state : InboundState τ
  ahead : Nat → FrameEnv

variable (frameOps : FrameOps τ δ ρ π κ)

/-- A frame that brings nothing to apply. -/
def FrameRun.skipped (state : InboundState τ) : FrameRun τ π := ⟨.ok 0, state, [], [], [], []⟩

def FrameRun.failed (state : InboundState τ) (e : InboundError) : FrameRun τ π :=
  ⟨.error e, state, [], [], [], []⟩

/-- `handle_inbound_frame` of a logged-in user. -/
def FrameOps.applyFrame (state : InboundState τ) (frame : Nat × δ) : FrameRun τ π :=
  match frameOps.messageType frame.1 with
  | .sendMessageRequest =>
      match frameOps.decodeSendMessage frame.2 with
      | .error e => .failed state (.serialization ("decode send message request: " ++ e))
      | .ok req =>
          match frameOps.sendMessageToSyncItem state req with
          | .error e => .failed state e
          | .ok none => .skipped state
          | .ok (some item) =>
              Collected.finish frameOps.toPushOps env
                { Collected.start state with messageItems := [item] }
  | .pushMessageRequest =>
      match frameOps.decodePush frame.2 with
      | .error e => .failed state (.serialization ("decode push message: " ++ e))
      | .ok req =>
          if frameOps.skipInboundMaterialization then .skipped state
          else frameOps.applyPushes env state [req]
  | .pushBatchRequest =>
      match frameOps.decodeBatch frame.2 with
      | .error e => .failed state (.serialization ("decode push batch: " ++ e))
      | .ok messages =>
          if frameOps.skipInboundMaterialization then .skipped state
          else frameOps.applyPushes env state messages
  | .publishRequest =>
      match frameOps.decodePublish frame.2 with
      | .error e => .failed state (.serialization ("decode publish request: " ++ e))
      | .ok req =>
          match frameOps.decodePush req.payload, frameOps.decodeBatch req.payload with
          | .ok push, _ =>
              if frameOps.skipInboundMaterialization then .skipped state
              else frameOps.applyPushes env state [push]
          | .error _, .ok batch =>
              if frameOps.skipInboundMaterialization then .skipped state
              else frameOps.applyPushes env state batch
          | .error _, .error _ =>
              .skipped { state with rest := frameOps.roomPublish state.rest req }
  | .other => .skipped state

def preloginLimit : Nat := 256

/-- `handle_inbound_frame`: without a user a frame with pushes is put into the buffer. -/
def FrameOps.handleInboundFrame (s : InboundSession τ δ) (frame : Nat × δ) :
    Except InboundError Nat × InboundSession τ δ :=
  match s.currentUid with
  | none =>
      if frameOps.messageType frame.1 = .other then
        (.ok 0, s)
      else
        let frames := s.pendingPreloginInboundFrames
        let frames := if preloginLimit ≤ frames.length then frames.drop 1 else frames
        (.ok 0, { s with pendingPreloginInboundFrames := frames ++ [frame] })
  | some uid =>
      let run := frameOps.applyFrame { s.ahead 0 with currentUserId := parseU64 uid } s.state
        frame
      (run.result, { s with state := run.state, ahead := fun i => s.ahead (i + 1) })

/-- The loop over the buffered frames, with the frames handed to the handler. -/
def FrameOps.replayFrames : InboundSession τ δ → List (Nat × δ) → Nat →
    Except InboundError Nat × InboundSession τ δ × List (Nat × δ)
  | s, [], applied => (.ok applied, s, [])
  | s, frame :: frames, applied =>
      match frameOps.handleInboundFrame s frame with
      | (.ok n, s') =>
          let (result, s'', handed) := FrameOps.replayFrames s' frames (applied + n)
          (result, s'', frame :: handed)
      | (.error e, s') => (.error e, s', [frame])

def FrameOps.replayPreloginInboundFrames (s : InboundSession τ δ) :
    Except InboundError Nat × InboundSession τ δ × List (Nat × δ) :=
  if s.currentUid = none ∨ s.pendingPreloginInboundFrames = [] then
    (.ok 0, s, [])
  else
    frameOps.replayFrames { s with pendingPreloginInboundFrames := [] }
      s.pendingPreloginInboundFrames 0

end Model

section Replay

variable {τ δ ρ π κ : Type} (ops : FrameOps τ δ ρ π κ)

/-- The session after a frame, and whether the frame was handled without error. -/
def FrameOps.afterFrame (s : InboundSession τ δ) (frame : Nat × δ) : InboundSession τ δ :=
  (ops.handleInboundFrame s frame).2

def FrameOps.Handled (s : InboundSession τ δ) (frame : Nat × δ) : Prop :=
  (ops.handleInboundFrame s frame).1.isOk = true

/-- The loop hands on a frame for as long as the frames before it are handled. -/
theorem FrameOps.handed_iff (frames : List (Nat × δ)) :
    ∀ (s : InboundSession τ δ) (applied : Nat),
      (ops.replayFrames s frames applied).2.2 = frames ↔
        Guarded ops.afterFrame ops.Handled s frames.dropLast := by
  induction frames with
  | nil =>
      intro s applied
      exact iff_of_true rfl trivial
  | cons frame frames ih =>
      intro s applied
      cases frames with
      | nil =>
          refine iff_of_true ?_ trivial
          unfold FrameOps.replayFrames
          split <;> rfl
      | cons next frames =>
          rw [List.dropLast_cons_cons, guarded_cons]
          unfold FrameOps.replayFrames
          split
          · rename_i n s' hhandle
            have hok : ops.Handled s frame := by
              unfold FrameOps.Handled
              rw [hhandle]
              rfl
            have hafter : ops.afterFrame s frame = s' := by
              unfold FrameOps.afterFrame
              rw [hhandle]
            rw [hafter, ← ih s' (applied + n)]
            dsimp only
            rw [List.cons.injEq]
            exact and_congr_left (fun _ => iff_of_true rfl hok)
          · rename_i e s' hhandle
            refine iff_of_false (by simp) (fun h => ?_)
            have hok := h.1
            unfold FrameOps.Handled at hok
            rw [hhandle] at hok
            cases hok

/-- A logged-in client puts nothing back into the buffer. -/
theorem FrameOps.replayFrames_pending (frames : List (Nat × δ)) :
    ∀ (s : InboundSession τ δ) (applied : Nat), s.currentUid ≠ none →
      s.pendingPreloginInboundFrames = [] →
      (ops.replayFrames s frames applied).2.1.pendingPreloginInboundFrames = [] := by
  induction frames with
  | nil =>
      intro s applied _ hempty
      exact hempty
  | cons frame frames ih =>
      intro s applied huid hempty
      obtain ⟨uid, huid'⟩ := Option.ne_none_iff_exists'.mp huid
      have hsession : ∀ r s', ops.handleInboundFrame s frame = (r, s') →
          s'.currentUid ≠ none ∧ s'.pendingPreloginInboundFrames = [] := by
        intro r s' hhandle
        unfold FrameOps.handleInboundFrame at hhandle
        rw [huid'] at hhandle
        cases hhandle
        exact ⟨Option.some_ne_none uid, hempty⟩
      unfold FrameOps.replayFrames
      split
      · rename_i n s' hhandle
        obtain ⟨huid'', hempty'⟩ := hsession _ _ hhandle
        exact ih s' _ huid'' hempty'
      · rename_i e s' hhandle
        exact (hsession _ _ hhandle).2

end Replay

section Batch

variable {τ π κ : Type} (ops : PushOps τ π κ)

/-- The messages of a batch, in its order. -/
def PushOps.messagesOf (pushes : List π) : List (SyncEntityItem ItemPayload) :=
  pushes.filterMap (fun push =>
    match ops.classify push with
    | .message item => some item
    | _ => none)

def PushOps.cursorsOf (pushes : List π) : List (SyncEntityItem ItemPayload) :=
  pushes.filterMap (fun push =>
    match ops.classify push with
    | .status item => some item
    | _ => none)

def PushOps.receiptsOf (pushes : List π) : List DeliveryReceipt :=
  pushes.filterMap (fun push =>
    match ops.classify push with
    | .receipt receipt => some receipt
    | _ => none)

/-- The pushes of a batch that bring a canonical event. -/
def PushOps.canonicalOf (pushes : List π) : List π :=
  pushes.filter (fun push =>
    match ops.classify push with
    | .canonical (.ok _) => true
    | _ => false)

/-- The items went through the pipeline, and all of them but repeats were applied. -/
def AppliesAll
    (syncs : List SyncCall) (entityType : String)
    (items : List (SyncEntityItem ItemPayload)) : Prop :=
  ∃ call ∈ syncs, call.entityType = entityType ∧ call.items = items ∧
    call.applied = call.accepted

/--
The batch keeps every push: each gets its turn, its canonical event is applied or put
aside, and what it leaves is applied.
-/
structure PushOps.KeepsBatch
    (env : FrameEnv) (state : InboundState τ) (pushes : List π) : Prop where
  taken : (ops.applyPushes env state pushes).taken = pushes
  canonical : (ops.applyPushes env state pushes).canonical = ops.canonicalOf pushes
  messages : ops.messagesOf pushes ≠ [] →
    AppliesAll (ops.applyPushes env state pushes).syncs "message" (ops.messagesOf pushes)
  cursors : ops.cursorsOf pushes ≠ [] →
    AppliesAll (ops.applyPushes env state pushes).syncs "channel_read_cursor"
      (ops.cursorsOf pushes)
  receipts : (ops.applyPushes env state pushes).receipts = ops.receiptsOf pushes

def PushOps.afterPush (env : FrameEnv) (c : Collected τ π) (push : π) : Collected τ π :=
  (c.take ops env push).2

/-- The push is taken without error. -/
def PushOps.Taken (env : FrameEnv) (c : Collected τ π) (push : π) : Prop :=
  (c.take ops env push).1.isOk = true

/-- No item fails to be applied, of those that wait in the pipeline and of the new ones. -/
def PushOps.Drains
    (currentUserId : Option Nat) (envs : Nat → Env) (state : InboundState τ)
    (entityType : String) (items : List (SyncEntityItem ItemPayload)) : Prop :=
  Guarded (ops.codec.afterTurn ops.statusPayload currentUserId true)
    (ops.codec.Applies ops.statusPayload currentUserId true) state.store
    (state.turns envs entityType items)

instance (currentUserId : Option Nat) (envs : Nat → Env) (state : InboundState τ)
    (entityType : String) (items : List (SyncEntityItem ItemPayload)) :
    Decidable (ops.Drains currentUserId envs state entityType items) :=
  inferInstanceAs (Decidable (Guarded _ _ _ _))

/--
No item fails to be applied when the messages are, or without messages the read cursors;
or what then stays behind is nothing.
-/
def Collected.StagesKeep (env : FrameEnv) (c : Collected τ π) : Prop :=
  (c.messageItems ≠ [] →
    ops.Drains env.currentUserId env.messages c.state "message" c.messageItems ∨
      acceptedEntries c.state.receivePipeline "message" none c.messageItems = [] ∧
        c.readCursorItems = [] ∧ c.deliveryReceipts = []) ∧
  (c.messageItems = [] → c.readCursorItems ≠ [] →
    ops.Drains env.currentUserId env.cursors c.state "channel_read_cursor"
        c.readCursorItems ∨
      acceptedEntries c.state.receivePipeline "channel_read_cursor" none
          c.readCursorItems = [] ∧ c.deliveryReceipts = [])

/-- The batch leaves nothing to apply after the loop, and its last push is no event. -/
def PushOps.NothingCollected (pushes : List π) : Prop :=
  ops.messagesOf pushes = [] ∧ ops.cursorsOf pushes = [] ∧ ops.receiptsOf pushes = [] ∧
    ops.canonicalOf pushes.getLast?.toList = []

theorem Collected.direct_frame (c : Collected τ π) (r : Except InboundError Nat × InboundState τ) :
    (c.direct r).2.taken = c.taken ∧ (c.direct r).2.canonical = c.canonical ∧
      (c.direct r).2.messageItems = c.messageItems ∧
      (c.direct r).2.readCursorItems = c.readCursorItems ∧
      (c.direct r).2.deliveryReceipts = c.deliveryReceipts := by
  obtain ⟨e | applied, state⟩ := r
  · exact ⟨rfl, rfl, rfl, rfl, rfl⟩
  · exact ⟨rfl, rfl, rfl, rfl, rfl⟩

/-- What a push leaves to be applied, and that it had its turn. -/
theorem Collected.take_frame (env : FrameEnv) (c : Collected τ π) (push : π) :
    (c.take ops env push).2.taken = c.taken ++ [push] ∧
    (c.take ops env push).2.messageItems = c.messageItems ++ ops.messagesOf [push] ∧
    (c.take ops env push).2.readCursorItems = c.readCursorItems ++ ops.cursorsOf [push] ∧
    (c.take ops env push).2.deliveryReceipts =
      c.deliveryReceipts ++ ops.receiptsOf [push] := by
  unfold Collected.take PushOps.messagesOf PushOps.cursorsOf PushOps.receiptsOf
  simp only [List.filterMap_cons, List.filterMap_nil]
  cases ops.classify push with
  | invalidation pulls =>
      simp only [List.append_nil]
      obtain ⟨htaken, -, hmessages, hcursors, hreceipts⟩ :=
        Collected.direct_frame { c with taken := c.taken ++ [push] }
          (ops.pullEntities c.state pulls)
      exact ⟨htaken, hmessages, hcursors, hreceipts⟩
  | canonical event =>
      simp only [List.append_nil]
      cases event with
      | error e => exact ⟨rfl, rfl, rfl, rfl⟩
      | ok event =>
          dsimp only
          split
          · exact ⟨rfl, rfl, rfl, rfl⟩
          · exact ⟨rfl, rfl, rfl, rfl⟩
  | friendEvent peerUid => simp only [List.append_nil, and_self]
  | status item => simp only [List.append_nil, and_self]
  | receipt receipt => simp only [List.append_nil, and_self]
  | message item => simp only [List.append_nil, and_self]

/-- A canonical push is recorded exactly if it is taken without error. -/
theorem Collected.take_canonical (env : FrameEnv) (c : Collected τ π) (push : π) :
    (ops.Taken env c push →
      (c.take ops env push).2.canonical = c.canonical ++ ops.canonicalOf [push]) ∧
    (¬ ops.Taken env c push → (c.take ops env push).2.canonical = c.canonical) := by
  unfold PushOps.Taken Collected.take PushOps.canonicalOf
  simp only [List.filter_cons, List.filter_nil]
  cases ops.classify push with
  | invalidation pulls =>
      have hframe := (Collected.direct_frame { c with taken := c.taken ++ [push] }
        (ops.pullEntities c.state pulls)).2.1
      exact ⟨fun _ => hframe.trans (List.append_nil _).symm, fun _ => hframe⟩
  | canonical event =>
      cases event with
      | error e => exact ⟨nofun, fun _ => rfl⟩
      | ok event =>
          dsimp only
          split
          · exact ⟨nofun, fun _ => rfl⟩
          · exact ⟨fun _ => rfl, fun h => absurd rfl h⟩
  | friendEvent peerUid => exact ⟨fun _ => (List.append_nil _).symm, fun _ => rfl⟩
  | status item => exact ⟨fun _ => (List.append_nil _).symm, fun _ => rfl⟩
  | receipt receipt => exact ⟨fun _ => (List.append_nil _).symm, fun _ => rfl⟩
  | message item => exact ⟨fun _ => (List.append_nil _).symm, fun _ => rfl⟩

/-- The loop ends normally exactly when no push fails, with everything collected. -/
theorem Collected.takeAll_cases (env : FrameEnv) (pushes : List π) :
    ∀ c : Collected τ π,
      (∃ c', Collected.takeAll ops env c pushes = (.ok (), c') ∧
        Guarded (ops.afterPush env) (ops.Taken env) c pushes ∧
        c' = run (ops.afterPush env) c pushes ∧
        c'.taken = c.taken ++ pushes ∧
        c'.canonical = c.canonical ++ ops.canonicalOf pushes ∧
        c'.messageItems = c.messageItems ++ ops.messagesOf pushes ∧
        c'.readCursorItems = c.readCursorItems ++ ops.cursorsOf pushes ∧
        c'.deliveryReceipts = c.deliveryReceipts ++ ops.receiptsOf pushes) ∨
      (∃ e c' done push rest, Collected.takeAll ops env c pushes = (.error e, c') ∧
        pushes = done ++ push :: rest ∧
        Guarded (ops.afterPush env) (ops.Taken env) c done ∧
        ¬ ops.Taken env (run (ops.afterPush env) c done) push ∧
        c'.taken = c.taken ++ done ++ [push] ∧
        c'.canonical = c.canonical ++ ops.canonicalOf done) := by
  induction pushes with
  | nil =>
      intro c
      refine .inl ⟨c, rfl, trivial, rfl, ?_, ?_, ?_, ?_, ?_⟩
      all_goals simp [PushOps.canonicalOf, PushOps.messagesOf, PushOps.cursorsOf,
        PushOps.receiptsOf]
  | cons push pushes ih =>
      intro c
      obtain ⟨htaken, hmessages, hcursors, hreceipts⟩ := c.take_frame ops env push
      obtain ⟨hcanonical, hnocanonical⟩ := c.take_canonical ops env push
      unfold Collected.takeAll
      split
      · rename_i c' htake
        have hok : ops.Taken env c push := by
          unfold PushOps.Taken
          rw [htake]
          rfl
        have hafter : ops.afterPush env c push = c' := by
          unfold PushOps.afterPush
          rw [htake]
        have hcanonical := hcanonical hok
        rw [htake] at htaken hcanonical hmessages hcursors hreceipts
        obtain ⟨c'', hall, hguarded, hrun, htaken', hcanonical', hmessages', hcursors',
            hreceipts'⟩ |
          ⟨e, c'', done, last, rest, hall, hsplit, hguarded, hlast, htaken', hcanonical'⟩ :=
          ih c'
        · refine .inl ⟨c'', hall, ⟨hok, hafter ▸ hguarded⟩, ?_, ?_, ?_, ?_, ?_, ?_⟩
          · rw [run_cons, hafter]
            exact hrun
          · rw [htaken', htaken, List.append_assoc, List.singleton_append]
          · rw [hcanonical', hcanonical, List.append_assoc]
            simp only [PushOps.canonicalOf, ← List.filter_append, List.singleton_append]
          · rw [hmessages', hmessages, List.append_assoc]
            simp only [PushOps.messagesOf, ← List.filterMap_append, List.singleton_append]
          · rw [hcursors', hcursors, List.append_assoc]
            simp only [PushOps.cursorsOf, ← List.filterMap_append, List.singleton_append]
          · rw [hreceipts', hreceipts, List.append_assoc]
            simp only [PushOps.receiptsOf, ← List.filterMap_append, List.singleton_append]
        · refine .inr ⟨e, c'', push :: done, last, rest, hall, ?_, ⟨hok, hafter ▸ hguarded⟩,
            ?_, ?_, ?_⟩
          · rw [hsplit, List.cons_append]
          · rw [run_cons, hafter]
            exact hlast
          · dsimp only at htaken
            rw [htaken', htaken]
            simp only [List.append_assoc, List.cons_append, List.nil_append]
          · rw [hcanonical', hcanonical, List.append_assoc]
            simp only [PushOps.canonicalOf, ← List.filter_append, List.singleton_append]
      · rename_i e c' htake
        have hnot : ¬ ops.Taken env c push := by
          unfold PushOps.Taken
          rw [htake]
          nofun
        have hnocanonical := hnocanonical hnot
        rw [htake] at htaken hnocanonical
        refine .inr ⟨e, c', [], push, pushes, rfl, rfl, trivial, hnot, ?_, ?_⟩
        · rw [List.append_nil]
          exact htaken
        · exact hnocanonical.trans (List.append_nil _).symm

/-- Of what comes behind `first`, a beginning of the whole has all or not all. -/
theorem drop_eq_iff_of_begin {α : Type} {done first new : List α}
    (h : done <+: first ++ new) :
    done.drop first.length = new ↔ new = [] ∨ done = first ++ new := by
  obtain ⟨rest, hrest⟩ := h
  have hlength := congrArg List.length hrest
  rw [List.length_append, List.length_append] at hlength
  constructor
  · intro hdrop
    refine (Classical.em (new = [])).imp id (fun hne => ?_)
    have hnew := congrArg List.length hdrop
    rw [List.length_drop] at hnew
    have hpos := List.length_pos_of_ne_nil hne
    have hnil : rest = [] := List.eq_nil_of_length_eq_zero (by omega)
    rw [hnil, List.append_nil] at hrest
    exact hrest
  · rintro (rfl | rfl)
    · rw [List.length_nil] at hlength
      exact List.drop_of_length_le (by omega)
    · exact List.drop_left

/-- A call applies its new items exactly if it has none or no turn fails. -/
theorem PushOps.syncCollected_spec
    (env : FrameEnv) (envs : Nat → Env) (state : InboundState τ) (entityType : String)
    {items : List (SyncEntityItem ItemPayload)} (hitems : items ≠ []) :
    ∃ call, (ops.syncCollected env envs state entityType items).2.2 = [call] ∧
      call.entityType = entityType ∧ call.items = items ∧
      (call.applied = call.accepted ↔
        acceptedEntries state.receivePipeline entityType none items = [] ∨
          ops.Drains env.currentUserId envs state entityType items) ∧
      ((ops.syncCollected env envs state entityType items).1.isOk = true ↔
        ops.Drains env.currentUserId envs state entityType items) ∧
      ((ops.syncCollected env envs state entityType items).1.isOk = true →
        (ops.syncCollected env envs state entityType items).2.1.receivePipeline.queue =
          []) := by
  have hturns := @enqueueAndApplySyncItems_turns ops.codec ops.statusPayload
    env.currentUserId true envs entityType none items state.receivePipeline state.store
  have hok := (@applySyncEntries_iff ops.codec ops.statusPayload env.currentUserId true
    (state.turns envs entityType items) state.store).1
  obtain ⟨hbegin, happlied⟩ := @appliedTurns_iff ops.codec ops.statusPayload
    env.currentUserId true (state.turns envs entityType items) state.store
  have hentries : (state.turns envs entityType items).map Prod.snd =
      state.receivePipeline.waiting ++
        acceptedEntries state.receivePipeline entityType none items :=
    entries_turnsOf envs _
  rw [hentries] at hbegin happlied
  have hkept := (drop_eq_iff_of_begin hbegin).trans (or_congr_right happlied)
  unfold PushOps.syncCollected
  rw [if_neg (by simpa using hitems)]
  unfold PushOps.enqueueAndApply
  dsimp only
  rcases hrun : ops.codec.enqueueAndApplySyncItems ops.statusPayload env.currentUserId true
    envs entityType none items state.receivePipeline state.store with ⟨e | r, p, s⟩
  · rw [hrun] at hturns
    refine ⟨_, rfl, rfl, rfl, hkept, ?_, nofun⟩
    refine iff_of_false nofun (fun hdrains => ?_)
    have hloop := hok.mpr hdrains
    unfold InboundState.turns at hloop
    rw [← hturns] at hloop
    cases hloop
  · rw [hrun] at hturns
    refine ⟨_, rfl, rfl, rfl, hkept, ?_, ?_⟩
    · refine iff_of_true rfl (hok.mp ?_)
      unfold InboundState.turns
      rw [← hturns]
      rfl
    · exact fun _ => enqueueAndApplySyncItems_pipeline hrun

/-- With an empty queue the read cursors meet no failure. -/
theorem PushOps.drains_readCursors
    (currentUserId : Option Nat) (envs : Nat → Env) {state : InboundState τ}
    (hqueue : state.receivePipeline.queue = [])
    (items : List (SyncEntityItem ItemPayload)) :
    ops.Drains currentUserId envs state "channel_read_cursor" items := by
  have hwaiting : state.receivePipeline.waiting = [] := by
    unfold ReceivePipeline.waiting
    rw [hqueue]
    rfl
  unfold PushOps.Drains InboundState.turns drainTurns
  rw [hwaiting, List.nil_append]
  have htype : ∀ turn ∈ turnsOf envs (acceptedEntries state.receivePipeline
      "channel_read_cursor" none items), turn.2.entityType = "channel_read_cursor" := by
    intro turn hturn
    have hentry := List.mem_map_of_mem (f := Prod.snd) hturn
    rw [entries_turnsOf] at hentry
    obtain ⟨item, -, heq⟩ := List.mem_map.mp hentry
    rw [← heq]
  generalize turnsOf envs _ = turns at htype
  generalize state.store = s
  induction turns generalizing s with
  | nil =>
      trivial
  | cons turn turns ih =>
      obtain ⟨hhead, htail⟩ := List.forall_mem_cons.mp htype
      exact ⟨applies_readCursor s hhead, ih htail _⟩

theorem appliesAll_singleton
    {call : SyncCall} {entityType : String} {items : List (SyncEntityItem ItemPayload)} :
    AppliesAll [call] entityType items ↔
      call.entityType = entityType ∧ call.items = items ∧ call.applied = call.accepted := by
  unfold AppliesAll
  simp only [List.mem_singleton, exists_eq_left]

theorem AppliesAll.append
    {syncs syncs' : List SyncCall} {entityType : String}
    {items : List (SyncEntityItem ItemPayload)}
    (h : AppliesAll syncs entityType items ∨ AppliesAll syncs' entityType items) :
    AppliesAll (syncs ++ syncs') entityType items := by
  rcases h with ⟨call, hcall, hrest⟩ | ⟨call, hcall, hrest⟩
  · exact ⟨call, List.mem_append_left _ hcall, hrest⟩
  · exact ⟨call, List.mem_append_right _ hcall, hrest⟩

theorem PushOps.syncCollected_nil
    (env : FrameEnv) (envs : Nat → Env) (state : InboundState τ) (entityType : String) :
    ops.syncCollected env envs state entityType [] = (.ok 0, state, []) := by
  rfl

/-- Behind a loop that left no messages only the read cursors can fail. -/
theorem Collected.finish_keeps_iff_cursors
    (env : FrameEnv) (c : Collected τ π) (hmessages : c.messageItems = []) :
    ((c.readCursorItems ≠ [] →
        AppliesAll (c.finish ops env).syncs "channel_read_cursor" c.readCursorItems) ∧
      (c.finish ops env).receipts = c.deliveryReceipts) ↔
    (c.readCursorItems ≠ [] →
      ops.Drains env.currentUserId env.cursors c.state "channel_read_cursor"
          c.readCursorItems ∨
        acceptedEntries c.state.receivePipeline "channel_read_cursor" none
            c.readCursorItems = [] ∧ c.deliveryReceipts = []) := by
  unfold Collected.finish
  rw [hmessages, PushOps.syncCollected_nil]
  dsimp only
  by_cases hcursors : c.readCursorItems = []
  · rw [hcursors, PushOps.syncCollected_nil]
    exact iff_of_true ⟨fun h => absurd rfl h, rfl⟩ (fun h => absurd rfl h)
  · obtain ⟨call, hsyncs, htype, hitems, happlied, hok, -⟩ :=
      ops.syncCollected_spec env env.cursors c.state "channel_read_cursor" hcursors
    generalize ops.syncCollected env env.cursors c.state "channel_read_cursor"
      c.readCursorItems = stage at hsyncs hok ⊢
    obtain ⟨e | cursors, state', syncs'⟩ := stage
    · obtain rfl : syncs' = [call] := hsyncs
      have hfails := mt hok.mpr nofun
      dsimp only
      rw [List.nil_append, appliesAll_singleton, happlied]
      constructor
      · rintro ⟨hkept, hreceipts⟩ _
        exact .inr ⟨(hkept hcursors).2.2.resolve_right hfails, hreceipts.symm⟩
      · intro h
        obtain ⟨haccepted, hreceipts⟩ := (h hcursors).resolve_left hfails
        exact ⟨fun _ => ⟨htype, hitems, .inl haccepted⟩, hreceipts.symm⟩
    · obtain rfl : syncs' = [call] := hsyncs
      have hdrains := hok.mp rfl
      refine iff_of_true ⟨fun _ => ?_, rfl⟩ (fun _ => .inl hdrains)
      exact appliesAll_singleton.mpr ⟨htype, hitems, happlied.mpr (.inr hdrains)⟩

/-- Behind the loop, the items and the kinds of items hold each other up. -/
theorem Collected.finish_keeps_iff (env : FrameEnv) (c : Collected τ π) :
    ((c.messageItems ≠ [] →
        AppliesAll (c.finish ops env).syncs "message" c.messageItems) ∧
      (c.readCursorItems ≠ [] →
        AppliesAll (c.finish ops env).syncs "channel_read_cursor" c.readCursorItems) ∧
      (c.finish ops env).receipts = c.deliveryReceipts) ↔ c.StagesKeep ops env := by
  unfold Collected.StagesKeep
  by_cases hmessages : c.messageItems = []
  · have hcursors := c.finish_keeps_iff_cursors ops env hmessages
    rw [hcursors]
    constructor
    · rintro ⟨-, h⟩
      exact ⟨fun hne => absurd hmessages hne, fun _ => h⟩
    · rintro ⟨-, h⟩
      exact ⟨fun hne => absurd hmessages hne, h hmessages⟩
  · have hsecond : ∀ p : Prop, (c.messageItems = [] → p) ↔ True :=
      fun p => iff_of_true (fun h => absurd h hmessages) trivial
    rw [hsecond, and_true]
    obtain ⟨call, hsyncs, htype, hitems, happlied, hok, hqueue⟩ :=
      ops.syncCollected_spec env env.messages c.state "message" hmessages
    unfold Collected.finish
    generalize ops.syncCollected env env.messages c.state "message" c.messageItems = stage
      at hsyncs hok hqueue ⊢
    obtain ⟨e | messages, state', syncs⟩ := stage
    · obtain rfl : syncs = [call] := hsyncs
      have hfails := mt hok.mpr nofun
      dsimp only
      rw [appliesAll_singleton, appliesAll_singleton, happlied]
      constructor
      · rintro ⟨hkept, hcursors, hreceipts⟩ _
        refine .inr ⟨(hkept hmessages).2.2.resolve_right hfails, ?_, hreceipts.symm⟩
        by_contra hne
        have hother := htype.symm.trans (hcursors hne).1
        revert hother
        decide
      · intro h
        obtain ⟨haccepted, hcursors, hreceipts⟩ := (h hmessages).resolve_left hfails
        exact ⟨fun _ => ⟨htype, hitems, .inl haccepted⟩, fun hne => absurd hcursors hne,
          hreceipts.symm⟩
    · obtain rfl : syncs = [call] := hsyncs
      have hdrains := hok.mp rfl
      have hmine : AppliesAll [call] "message" c.messageItems :=
        appliesAll_singleton.mpr ⟨htype, hitems, happlied.mpr (.inr hdrains)⟩
      -- the messages left the queue empty, so that the read cursors meet no failure
      have hlater := ops.drains_readCursors env.currentUserId env.cursors (hqueue rfl)
        c.readCursorItems
      refine iff_of_true ?_ (fun _ => .inl hdrains)
      by_cases hcursors : c.readCursorItems = []
      · dsimp only
        rw [hcursors, PushOps.syncCollected_nil]
        exact ⟨fun _ => AppliesAll.append (.inl hmine), fun h => absurd rfl h, rfl⟩
      · obtain ⟨call', hsyncs', htype', hitems', happlied', hok', -⟩ :=
          ops.syncCollected_spec env env.cursors state' "channel_read_cursor" hcursors
        dsimp only at hlater ⊢
        generalize ops.syncCollected env env.cursors state' "channel_read_cursor"
          c.readCursorItems = stage' at hsyncs' hok' ⊢
        obtain ⟨e | cursors, state'', syncs'⟩ := stage'
        · cases hok'.mpr hlater
        · obtain rfl : syncs' = [call'] := hsyncs'
          refine ⟨fun _ => AppliesAll.append (.inl hmine),
            fun _ => AppliesAll.append (.inr ?_), rfl⟩
          exact appliesAll_singleton.mpr
            ⟨htype', hitems', happlied'.mpr (.inr hlater)⟩

/-- A batch loses nothing exactly when its failures have nothing to lose. -/
theorem PushOps.keepsBatch_iff (env : FrameEnv) (state : InboundState τ) (pushes : List π) :
    ops.KeepsBatch env state pushes ↔
      Guarded (ops.afterPush env) (ops.Taken env) (.start state) pushes.dropLast ∧
      (ops.NothingCollected pushes ∨
        Guarded (ops.afterPush env) (ops.Taken env) (.start state) pushes ∧
          (run (ops.afterPush env) (.start state) pushes).StagesKeep ops env) := by
  obtain ⟨c, hall, hguarded, hrun, htaken, hcanonical, hmessages, hcursors, hreceipts⟩ |
    ⟨e, c, done, last, rest, hall, hsplit, hguarded, hlast, htaken, hcanonical⟩ :=
    Collected.takeAll_cases ops env pushes (.start state)
  · have happly : ops.applyPushes env state pushes = c.finish ops env := by
      unfold PushOps.applyPushes
      rw [hall]
    have hfinish := c.finish_keeps_iff ops env
    obtain ⟨hfinishTaken, hfinishCanonical⟩ : (c.finish ops env).taken = c.taken ∧
        (c.finish ops env).canonical = c.canonical := by
      unfold Collected.finish
      split
      · exact ⟨rfl, rfl⟩
      · split
        · exact ⟨rfl, rfl⟩
        · exact ⟨rfl, rfl⟩
    have hmessages' : c.messageItems = ops.messagesOf pushes := hmessages
    have hcursors' : c.readCursorItems = ops.cursorsOf pushes := hcursors
    have hreceipts' : c.deliveryReceipts = ops.receiptsOf pushes := hreceipts
    have hfirst : Guarded (ops.afterPush env) (ops.Taken env) (.start state)
        pushes.dropLast := by
      rcases pushes.eq_nil_or_concat with rfl | ⟨first, last, rfl⟩
      · trivial
      · rw [List.concat_eq_append] at hguarded ⊢
        rw [List.dropLast_concat]
        exact (guarded_append.mp hguarded).1
    rw [← hrun]
    rw [hmessages', hcursors', hreceipts', ← happly] at hfinish
    constructor
    · intro hkeeps
      exact ⟨hfirst, .inr ⟨hguarded,
        hfinish.mp ⟨hkeeps.messages, hkeeps.cursors, hkeeps.receipts⟩⟩⟩
    · rintro ⟨-, hrest⟩
      have hstages : c.StagesKeep ops env := by
        rcases hrest with hnothing | ⟨-, hstages⟩
        · refine ⟨fun hne => absurd (hmessages'.trans hnothing.1) hne, fun _ hne => ?_⟩
          exact absurd (hcursors'.trans hnothing.2.1) hne
        · exact hstages
      obtain ⟨hm, hc, hr⟩ := hfinish.mpr hstages
      refine ⟨?_, ?_, hm, hc, hr⟩
      · rw [happly, hfinishTaken]
        exact htaken
      · rw [happly, hfinishCanonical]
        exact hcanonical
  · have happly : ops.applyPushes env state pushes =
        ⟨.error e, c.state, c.taken, c.canonical, [], []⟩ := by
      unfold PushOps.applyPushes
      rw [hall]
    have hnot : ¬ Guarded (ops.afterPush env) (ops.Taken env) (.start state) pushes := by
      intro h
      rw [hsplit] at h
      exact hlast (guarded_append.mp h).2.1
    have htaken' : c.taken = done ++ [last] := htaken
    have hcanonical' : c.canonical = ops.canonicalOf done := hcanonical
    constructor
    · rintro ⟨hkept, hkeptCanonical, hm, hc, hr⟩
      rw [happly] at hkept hkeptCanonical hm hc hr
      -- every push had its turn, so the one that failed is the last
      obtain rfl : rest = [] := by
        have hlengths := congrArg List.length (htaken'.symm.trans (hkept.trans hsplit))
        simp only [List.length_append, List.length_cons, List.length_nil] at hlengths
        exact List.eq_nil_of_length_eq_zero (by omega)
      have hlastCanonical : ops.canonicalOf [last] = [] := by
        have hboth := hcanonical'.symm.trans (hkeptCanonical.trans (congrArg _ hsplit))
        rw [show ops.canonicalOf (done ++ [last]) =
          ops.canonicalOf done ++ ops.canonicalOf [last] from List.filter_append _ _] at hboth
        exact List.self_eq_append_right.mp hboth
      refine ⟨?_, .inl ⟨?_, ?_, hr.symm, ?_⟩⟩
      · rw [hsplit, List.dropLast_concat]
        exact hguarded
      · by_contra hne
        obtain ⟨call, hcall, -⟩ := hm hne
        cases hcall
      · by_contra hne
        obtain ⟨call, hcall, -⟩ := hc hne
        cases hcall
      · rw [hsplit, List.getLast?_concat]
        exact hlastCanonical
    · rintro ⟨hfirst, hrest⟩
      obtain ⟨hm, hc, hr, hlastCanonical⟩ := hrest.resolve_right (fun h => hnot h.1)
      obtain rfl : rest = [] := by
        by_contra hne
        rw [hsplit, List.dropLast_append_of_ne_nil (List.cons_ne_nil _ _),
          List.dropLast_cons_of_ne_nil hne] at hfirst
        exact hlast (guarded_append.mp hfirst).2.1
      rw [hsplit, List.getLast?_concat] at hlastCanonical
      refine ⟨?_, ?_, fun hne => absurd hm hne, fun hne => absurd hc hne, ?_⟩
      · rw [happly, hsplit]
        exact htaken'
      · have hboth : ops.canonicalOf (done ++ [last]) =
            ops.canonicalOf done ++ ops.canonicalOf [last] := List.filter_append _ _
        rw [happly, hsplit, hboth, hcanonical',
          show ops.canonicalOf [last] = [] from hlastCanonical, List.append_nil]
      · rw [happly, hr]

end Batch

section Keeps

variable {τ δ ρ π κ : Type}

/-- The push of a text, under a number that is also its place in the channel. -/
def textPush (n : Nat) : PushMessageRequest where
  serverMessageId := n
  localMessageId := 0
  channelId := 7
  channelType := 1
  fromUid := 2
  messageType := 0
  messageSeq := n
  timestamp := 0
  needReceipt := false
  deleted := false
  payload := .text "hi"

/-- Numbers as pushes: 0 is an invalidation whose pull fails, the others are messages. -/
def numberFrames : FrameOps Unit (List Nat) Nat Nat Unit where
  codec := sampleCodec
  statusPayload _ := .default
  entityInvalidationPullKeys push := if push = 0 then some () else none
  pullEntities state _ := (.error (.request "request timed out"), state)
  canonicalTimelineEvent _ := none
  pushMessageToFriendEvent _ := none
  pushMessageToStatusSyncItem _ := none
  pushMessageToDeliveryReceipt _ := none
  request := textPush
  pushEvent rest _ := rest
  messageType bizType := if bizType = 1 then .pushBatchRequest else .other
  decodeSendMessage _ := .error "not a message"
  decodePush _ := .error "not a push"
  decodeBatch pushes := if pushes = [] then .error "short buffer" else .ok pushes
  decodePublish _ := .error "not a publish request"
  sendMessageToSyncItem _ _ := .ok none
  roomPublish rest _ := rest
  skipInboundMaterialization := false

/-- No statement fails, but for the upsert of the item at one place, if any. -/
def frameEnv (failing : Option Nat) : FrameEnv where
  currentUserId := some 1
  pushes _ :=
    { defer := .calm 5
      items := fun _ => .calm 5
      listPending := false
      mutations := fun _ => (fun _ => .calm 5, false) }
  messages i :=
    { now := 5, fault := fun context =>
        decide (failing = some i) && context == "query remote message" }
  cursors _ := .calm 5
  receipts _ := .calm 5

def freshState : InboundState Unit where
  store := .empty
  pendingMutations := []
  receivePipeline := .new 512
  rest := ()

/-- A client that has just logged in, with these frames in its buffer. -/
def loggedInWith (frames : List (Nat × List Nat)) : InboundSession Unit (List Nat) where
  currentUid := some "1"
  pendingPreloginInboundFrames := frames
  state := freshState
  ahead _ := frameEnv none

end Keeps

end PrivchatSdk
