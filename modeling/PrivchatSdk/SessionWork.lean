import PrivchatSdk.ConnectionState
import PrivchatSdk.SessionMemory

/-!
# The work of the current user

Sync calls and inbound frames work on the current user's database with the
pipeline and the memory of the session.

`SameView` relates the work of one user after two different histories.  It is
kept by every operation here, with equal results, as long as the items of the
user have none of the keys that the histories left remembered; and only the
user's own items are then handed to the database.
-/

namespace PrivchatSdk
namespace Session

open Receive

universe u v w

section Active

variable {σ : Type u} {π : Type v} {ω : Type w}

/-- What a command of the current user works on. -/
structure Active (σ : Type u) (π : Type v) where
  store : σ
  pipeline : ReceivePipeline π
  memory : Memory

/-- What a sync call did. -/
structure SyncResult (π : Type v) where
  /-- The batches handed to the store, a failing one included. -/
  handed : List (SyncBatch π)
  applied : Nat
  queued : Nat
  droppedDuplicates : Nat
  events : List SdkEvent
  ok : Bool
  deriving DecidableEq

/-- What became of the drained batches. -/
structure Drained (σ : Type u) (π : Type v) where
  store : σ
  handed : List (SyncBatch π)
  applied : Nat
  events : List SdkEvent
  failed : Option (SyncBatch π)

/-- The loop over the drained batches; a batch that fails ends it. -/
def applyDrained (apply : σ → SyncBatch π → Except Unit (List SdkEvent) × σ) :
    σ → List (SyncBatch π) → Drained σ π
  | store, [] =>
      { store := store, handed := [], applied := 0, events := [], failed := none }
  | store, batch :: batches =>
      match apply store batch with
      | (.ok events, store') =>
          let rest := applyDrained apply store' batches
          { rest with
            handed := batch :: rest.handed
            applied := batch.items.length + rest.applied
            events := events ++ rest.events }
      | (.error _, store') =>
          { store := store', handed := [batch], applied := 0, events := [],
            failed := some batch }

/--
Drain the pipeline into the store of the current user.  A failed batch goes back
to the front of the queue.
-/
def Active.drain
    (host : Host σ π ω) (env : ω) (bump : Bool) (a : Active σ π) :
    SyncResult π × Active σ π :=
  let (batches, p) := drainBatches a.pipeline
  let d := applyDrained
    (fun store batch => host.applySyncEntities env store batch bump)
    a.store batches
  ({ handed := d.handed, applied := d.applied, queued := 0,
     droppedDuplicates := 0, events := d.events, ok := d.failed.isNone },
    { a with store := d.store, pipeline := d.failed.elim p p.requeueFront })

/--
A drain of `sync_entities` that is dropped: of the first `drained` batches the last may
be applied in part, and no batch is in the queue any more.
-/
def Active.dropDrain
    (host : Host σ π ω) (env : ω) (drained : Nat) (a : Active σ π) :
    SyncResult π × Active σ π :=
  let (batches, p) := drainBatches a.pipeline
  let d := applyDrained
    (fun store batch => host.applySyncEntities env store batch false)
    a.store (batches.take drained)
  ({ handed := d.handed, applied := 0, queued := 0,
     droppedDuplicates := 0, events := [], ok := false },
    { a with store := d.store, pipeline := p })

/-- `enqueue_and_apply_sync_items`. -/
def Active.enqueueAndApplySyncItems
    (host : Host σ π ω) (env : ω) (a : Active σ π)
    (entityType : String) (scope : Option String)
    (items : List (SyncEntityItem π)) (bump : Bool) :
    SyncResult π × Active σ π :=
  let (stats, p) := a.pipeline.enqueue entityType scope items
  let a : Active σ π := { a with
    pipeline := p
    memory := a.memory.startSync.countSync stats.queuedItems
      stats.droppedDuplicates }
  let (r, a') := a.drain host env bump
  let r := { r with
    queued := stats.queuedItems
    droppedDuplicates := stats.droppedDuplicates }
  if r.ok then
    (r, { a' with memory := a'.memory.finishSync r.events })
  else
    (r, a')

/-- A call of `enqueue_and_apply_sync_items` that is dropped; it counts nothing unread. -/
def Active.dropEnqueueAndApply
    (host : Host σ π ω) (env : ω) (a : Active σ π)
    (entityType : String) (scope : Option String)
    (items : List (SyncEntityItem π)) (drained : Nat) :
    SyncResult π × Active σ π :=
  let (stats, p) := a.pipeline.enqueue entityType scope items
  let a : Active σ π := { a with
    pipeline := p
    memory := a.memory.startSync.countSync stats.queuedItems
      stats.droppedDuplicates }
  let (r, a') := a.dropDrain host env drained
  ({ r with
      queued := stats.queuedItems
      droppedDuplicates := stats.droppedDuplicates }, a')

/-- The page loop of `sync_entities`, with the counts since the last restart. -/
def enqueueReplies (entityType : String) (scope : Option String) :
    ReceivePipeline π → Nat → Nat → List (SyncReply π) →
      Nat × Nat × ReceivePipeline π
  | p, queued, dropped, [] => (queued, dropped, p)
  | p, _, _, .restart :: replies =>
      enqueueReplies entityType scope p 0 0 replies
  | p, queued, dropped, .page items :: replies =>
      let (stats, p') := p.enqueue entityType scope items
      enqueueReplies entityType scope p' (queued + stats.queuedItems)
        (dropped + stats.droppedDuplicates) replies

/-- `sync_entities`. -/
def Active.syncEntities
    (host : Host σ π ω) (env : ω) (a : Active σ π) (pull : SyncPull π) :
    SyncResult π × Active σ π :=
  let (queued, dropped, p) :=
    enqueueReplies pull.entityType pull.scope a.pipeline 0 0 pull.replies
  let a : Active σ π := { a with
    pipeline := p
    memory := a.memory.startSync }
  if pull.complete then
    let (r, a') := a.drain host env false
    let r := { r with queued := queued, droppedDuplicates := dropped }
    if r.ok then
      let (saved, store) := host.saveSyncCursor env a'.store pull
      if saved then
        (r, { a' with
          store := store
          memory :=
            (a'.memory.countSync queued dropped).finishSync r.events })
      else
        ({ r with ok := false }, { a' with store := store })
    else
      (r, a')
  else
    ({ handed := [], applied := 0, queued := queued,
       droppedDuplicates := dropped, events := [], ok := false }, a)

/-- A call of `sync_entities` that is dropped after these replies. -/
def Active.dropSync
    (host : Host σ π ω) (env : ω) (a : Active σ π) (pull : SyncPull π)
    (drained : Nat) : SyncResult π × Active σ π :=
  let (queued, dropped, p) :=
    enqueueReplies pull.entityType pull.scope a.pipeline 0 0 pull.replies
  let a : Active σ π := { a with
    pipeline := p
    memory := a.memory.startSync }
  if pull.complete then
    let (r, a') := a.dropDrain host env drained
    ({ r with queued := queued, droppedDuplicates := dropped }, a')
  else
    ({ handed := [], applied := 0, queued := queued,
       droppedDuplicates := dropped, events := [], ok := false }, a)

end Active

section Frames

variable {σ : Type u} {π : Type v} {ω : Type w}

/-- The work of a frame in progress. -/
structure FrameWork (σ : Type u) (π : Type v) where
  active : Active σ π
  results : List (SyncResult π)
  messageItems : List (SyncEntityItem π)
  readCursorItems : List (SyncEntityItem π)
  deliveryReceipts : List DeliveryReceipt
  applied : Nat
  ok : Bool

/-- Report events at the end of the command. -/
def Active.push (a : Active σ π) (events : List SdkEvent) : Active σ π :=
  { a with memory :=
      { a.memory with pendingEvents := a.memory.pendingEvents ++ events } }

/-- `queue_last_sync_events`. -/
def Active.queueLastSyncEvents
    (a : Active σ π) (entityType : String) (scope : Option String)
    (applied : Nat) : Active σ π :=
  a.push (a.memory.lastSyncEntityEvents ++ [.syncEntitiesApplied entityType scope
    a.memory.lastSyncQueued applied a.memory.lastSyncDroppedDuplicates])

/-- The loop of `apply_entity_invalidation_push`, left at the first error. -/
def FrameWork.pull (host : Host σ π ω) (env : ω) :
    FrameWork σ π → List (SyncPull π) → FrameWork σ π
  | f, [] => f
  | f, pull :: pulls =>
      let (r, a) := f.active.syncEntities host env pull
      let f := { f with active := a, results := f.results ++ [r] }
      if r.ok then
        FrameWork.pull host env
          { f with
            active := a.queueLastSyncEvents pull.entityType pull.scope r.applied
            applied := f.applied + r.applied }
          pulls
      else
        { f with ok := false }

/-- Take a sync call into the frame. -/
def FrameWork.sync
    (host : Host σ π ω) (env : ω) (f : FrameWork σ π)
    (entityType : String) (scope : Option String)
    (items : List (SyncEntityItem π)) : FrameWork σ π :=
  let (r, a) := f.active.enqueueAndApplySyncItems host env entityType scope
    items true
  { f with
    active := a
    results := f.results ++ [r]
    applied := f.applied + r.applied
    ok := r.ok }

/-- The loop of `replay_pending_timeline_mutations`, left at the first error. -/
def FrameWork.replay (host : Host σ π ω) (env : ω) :
    FrameWork σ π → List (Entry π) → FrameWork σ π
  | f, [] => f
  | f, e :: es =>
      if f.ok then
        let f' := f.sync host env e.entityType e.scope [e.item]
        if f'.ok then
          let (deleted, store) := host.deletePendingMutation env f'.active.store e
          let a : Active σ π := { f'.active with store := store }
          if deleted then
            FrameWork.replay host env
              { f' with
                active := a.queueLastSyncEvents e.entityType e.scope
                  (f'.applied - f.applied) } es
          else
            { f' with active := a, ok := false }
        else
          f'
      else
        f

/-- One push of `handle_inbound_frame`. -/
def FrameWork.take
    (host : Host σ π ω) (env : ω) (f : FrameWork σ π) : Push π → FrameWork σ π
  | .invalidation pulls => f.pull host env pulls
  | .commit entityType scope item replayed =>
      (f.sync host env entityType scope [item]).replay host env replayed
  | .deferred item =>
      { f with active := { f.active with
          store := host.deferMutation env f.active.store item } }
  | .deliveryReceipt receipt =>
      { f with deliveryReceipts := f.deliveryReceipts ++ [receipt] }
  | .friendEvent peerUid =>
      { f with active :=
          f.active.push [.syncEntityChanged "friend" peerUid false] }
  | .statusItem item =>
      { f with readCursorItems := f.readCursorItems ++ [item] }
  | .message item =>
      { f with messageItems := f.messageItems ++ [item] }

/-- The loop over the pushes of a frame, left at the first error. -/
def FrameWork.takeAll (host : Host σ π ω) (env : ω) :
    FrameWork σ π → List (Push π) → FrameWork σ π
  | f, [] => f
  | f, push :: pushes =>
      let f' := f.take host env push
      if f'.ok then f'.takeAll host env pushes else f'

/-- Collected items of one family, unless there are none or the frame failed. -/
def FrameWork.syncCollected
    (host : Host σ π ω) (env : ω) (f : FrameWork σ π)
    (entityType : String) (items : List (SyncEntityItem π)) : FrameWork σ π :=
  if f.ok && !items.isEmpty then f.sync host env entityType none items else f

/-- The loop over the delivery receipts. -/
def Active.deliver (host : Host σ π ω) (env : ω) :
    Active σ π → List DeliveryReceipt → Active σ π
  | a, [] => a
  | a, receipt :: receipts =>
      match host.markMessageDelivered env a.store receipt with
      | (none, store) => { a with store := store }.deliver host env receipts
      | (some messageId, store) =>
          { a with store := store }.push [.messageDelivered receipt.channelId
              receipt.channelType messageId receipt.serverMessageId
              receipt.deliveredAt]
            |>.deliver host env receipts

/-- What `handle_inbound_frame` does after its loop. -/
def FrameWork.finish
    (host : Host σ π ω) (env : ω) (f : FrameWork σ π) : FrameWork σ π :=
  let f := f.syncCollected host env "message" f.messageItems
  let f := f.syncCollected host env "channel_read_cursor" f.readCursorItems
  if f.ok then
    { f with active := f.active.deliver host env f.deliveryReceipts }
  else f

/-- What a session answers about itself. -/
structure SessionStatus where
  sessionState : Connection.SessionState
  bootstrapCompleted : Bool
  syncState : SyncStateSnapshot
  lastTerminalReason : Option Connection.TerminalReason
  deriving DecidableEq

/-- What a user can see of a command. -/
structure Output (π : Type v) where
  results : List (SyncResult π)
  reported : List SdkEvent
  served : Option TimelineSnapshot
  presence : List PresenceStatus
  resubscribed : List ((Nat × Nat) × Option String)
  repaired : List (RepairKey × RepairOutcome)
  status : Option SessionStatus
  deriving DecidableEq

/-- A command that shows nothing. -/
def Output.silent : Output π where
  results := []
  reported := []
  served := none
  presence := []
  resubscribed := []
  repaired := []
  status := none

/--
`handle_inbound_frame` of a logged-in user: the output, and whether the frame
was handled without error.  The actor emits the events of the last sync call if
something was applied.
-/
def Active.handleInboundFrame
    (host : Host σ π ω) (env : ω) (a : Active σ π) :
    InboundFrame π → Bool × Output π × Active σ π
  | .pushes messages =>
      let f := FrameWork.finish host env (FrameWork.takeAll host env
        { active := a, results := [], messageItems := [], readCursorItems := [],
          deliveryReceipts := [], applied := 0, ok := true } messages)
      (f.ok,
        { (Output.silent : Output π) with
          results := f.results
          reported := if f.ok && decide (0 < f.applied) then
              f.active.memory.lastSyncEntityEvents
            else [] },
        f.active)
  | .presenceChanged channelId snapshot payload publisher id timestamp =>
      let m := a.memory.updatePresenceCache [snapshot]
      (true, Output.silent,
        { a with memory := m }.push [.subscriptionMessageReceived channelId
          (some "presence_changed") payload publisher id timestamp])
  | .roomPublish channelId topic payload publisher id timestamp =>
      let (duplicate, m) := a.memory.roomMessageIsDuplicate channelId id
      if duplicate then
        (true, Output.silent, { a with memory := m })
      else
        (true, Output.silent,
          { a with memory := m }.push [.subscriptionMessageReceived channelId
            topic payload publisher id timestamp])
  | .ignored => (true, Output.silent, a)

/-- The loop of `replay_prelogin_inbound_frames`, left at the first error. -/
def Active.replayFrames (host : Host σ π ω) (env : ω) :
    Active σ π → List (InboundFrame π) → List (Output π) × Active σ π
  | a, [] => ([], a)
  | a, frame :: frames =>
      let (ok, o, a') := a.handleInboundFrame host env frame
      if ok then
        let (os, a'') := a'.replayFrames host env frames
        (o :: os, a'')
      else
        ([o], a')

end Frames

section Alike

variable {π : Type v}

/-- The key under which the pipeline remembers an entry. -/
def entryKey (e : Entry π) : String :=
  dedupeKey e.entityType e.scope e.item

/-- The limit of `ReceivePipeline::default`. -/
def recentKeyLimit : Nat := 8192

/-- The items of a call as entries. -/
def entriesOfCall
    (entityType : String) (scope : Option String)
    (items : List (SyncEntityItem π)) : List (Entry π) :=
  items.map (fun item =>
    { entityType := entityType, scope := scope, item := item })

variable {own : Entry π → Prop} {old : Finset String}

/--
Two pipelines of one user after different histories.  What waits is the same and
the user's `own`; in front of the common keys of own entries each may still
remember `old` ones.
-/
structure Alike (own : Entry π → Prop) (old : Finset String)
    (p q : ReceivePipeline π) : Prop where
  queue : p.queue = q.queue
  waiting : ∀ e ∈ p.waiting, own e
  limit : p.recentKeyLimit = recentKeyLimit
  limit' : q.recentKeyLimit = recentKeyLimit
  orders : ∃ a b c,
    p.recentKeyOrder = a ++ c ∧ q.recentKeyOrder = b ++ c ∧
      (∀ k ∈ a, k ∈ old) ∧ (∀ k ∈ b, k ∈ old) ∧
      ∀ k ∈ c, ∃ e, own e ∧ entryKey e = k
  left : p.WellKept
  right : q.WellKept

/-- An own key is remembered by both or by none. -/
theorem Alike.mem_recentKeys_iff
    {p q : ReceivePipeline π} (h : Alike own old p q)
    {key : String} (hkey : key ∉ old) :
    key ∈ p.recentKeys ↔ key ∈ q.recentKeys := by
  obtain ⟨a, b, c, hp, hq, ha, hb, -⟩ := h.orders
  have hna : key ∉ a := fun hk => hkey (ha key hk)
  have hnb : key ∉ b := fun hk => hkey (hb key hk)
  rw [h.left.keys, h.right.keys, hp, hq]
  simp [hna, hnb]

/-- A remembered key is an old one or that of an own entry. -/
theorem Alike.recentKeys_own
    {p q : ReceivePipeline π} (h : Alike own old p q)
    {key : String} (hkey : key ∈ p.recentKeys) :
    key ∈ old ∨ ∃ e, own e ∧ entryKey e = key := by
  obtain ⟨a, b, c, hp, -, ha, -, hc⟩ := h.orders
  rw [h.left.keys, hp, List.mem_toFinset, List.mem_append] at hkey
  exact hkey.imp (ha key) (hc key)

theorem Alike.rememberKey
    {p q : ReceivePipeline π} (h : Alike own old p q)
    {e : Entry π} (he : own e)
    (hp : entryKey e ∉ p.recentKeys) (hq : entryKey e ∉ q.recentKeys) :
    Alike own old (p.rememberKey (entryKey e)) (q.rememberKey (entryKey e)) := by
  obtain ⟨a, b, c, hpo, hqo, ha, hb, hc⟩ := h.orders
  refine
    { queue := h.queue
      waiting := h.waiting
      limit := h.limit
      limit' := h.limit'
      orders := ?_
      left := h.left.rememberKey hp
      right := h.right.rememberKey hq }
  -- Both drop the same number of common keys: `(x + y - l) - x = y - l`.
  have hdrop (x : List String) :
      (x ++ c ++ [entryKey e]).drop
          ((x ++ c).length + 1 - p.recentKeyLimit) =
        x.drop ((x ++ c).length + 1 - p.recentKeyLimit) ++
          (c ++ [entryKey e]).drop (c.length + 1 - p.recentKeyLimit) := by
    have hsub : (x ++ c).length + 1 - p.recentKeyLimit - x.length =
        c.length + 1 - p.recentKeyLimit := by
      rw [List.length_append]
      omega
    rw [List.append_assoc, List.drop_append, hsub]
  refine ⟨a.drop ((a ++ c).length + 1 - p.recentKeyLimit),
    b.drop ((b ++ c).length + 1 - p.recentKeyLimit),
    (c ++ [entryKey e]).drop (c.length + 1 - p.recentKeyLimit), ?_, ?_, ?_, ?_, ?_⟩
  · exact (p.rememberKey_order _).trans (by rw [hpo]; exact hdrop a)
  · exact (q.rememberKey_order _).trans
      (by rw [hqo, h.limit', ← h.limit]; exact hdrop b)
  · exact fun k hk => ha k (List.mem_of_mem_drop hk)
  · exact fun k hk => hb k (List.mem_of_mem_drop hk)
  · intro k hk
    rcases List.mem_append.mp (List.mem_of_mem_drop hk) with hk | hk
    · exact hc k hk
    · rw [List.mem_singleton] at hk
      exact ⟨e, he, hk.symm⟩

/-- The same own items are accepted by both, and the same number dropped. -/
theorem Alike.acceptItems
    (hfresh : ∀ e, own e → entryKey e ∉ old)
    {p q : ReceivePipeline π} (h : Alike own old p q)
    (entityType : String) (scope : Option String)
    (items : List (SyncEntityItem π))
    (hitems : ∀ e ∈ entriesOfCall entityType scope items, own e) :
    (p.acceptItems entityType scope items).1 =
        (q.acceptItems entityType scope items).1 ∧
      (p.acceptItems entityType scope items).2.1 =
        (q.acceptItems entityType scope items).2.1 ∧
      Alike own old (p.acceptItems entityType scope items).2.2
        (q.acceptItems entityType scope items).2.2 := by
  induction items generalizing p q with
  | nil =>
      exact ⟨rfl, rfl, h⟩
  | cons item items ih =>
      have hrest : ∀ e ∈ entriesOfCall entityType scope items, own e :=
        fun e he => hitems e (List.mem_cons_of_mem _ he)
      have hitem : own { entityType := entityType, scope := scope, item := item } :=
        hitems _ List.mem_cons_self
      have hiff := h.mem_recentKeys_iff (hfresh _ hitem)
      simp only [entryKey] at hiff
      simp only [ReceivePipeline.acceptItems]
      by_cases hp : dedupeKey entityType scope item ∈ p.recentKeys
      · obtain ⟨haccepted, hdropped, halike⟩ := ih h hrest
        simp only [if_pos hp, if_pos (hiff.mp hp)]
        exact ⟨haccepted, by rw [hdropped], halike⟩
      · have hq : dedupeKey entityType scope item ∉ q.recentKeys :=
          fun hk => hp (hiff.mpr hk)
        have hboth := h.rememberKey hitem hp hq
        obtain ⟨haccepted, hdropped, halike⟩ := ih hboth hrest
        simp only [entryKey] at haccepted hdropped halike
        simp only [if_neg hp, if_neg hq]
        exact ⟨by rw [haccepted], hdropped, halike⟩

theorem acceptItems_subset
    (p : ReceivePipeline π) (entityType : String) (scope : Option String)
    (items : List (SyncEntityItem π)) :
    ∀ item ∈ (p.acceptItems entityType scope items).1, item ∈ items := by
  induction items generalizing p with
  | nil =>
      simp [ReceivePipeline.acceptItems]
  | cons first items ih =>
      intro item hitem
      simp only [ReceivePipeline.acceptItems] at hitem
      split at hitem
      · exact List.mem_cons_of_mem _ (ih p item hitem)
      · rcases List.mem_cons.mp hitem with rfl | hitem
        · exact List.mem_cons_self
        · exact List.mem_cons_of_mem _ (ih _ item hitem)

/-- An enqueue of own items: the same statistics, and the pipelines stay alike. -/
theorem Alike.enqueue
    (hfresh : ∀ e, own e → entryKey e ∉ old)
    {p q : ReceivePipeline π} (h : Alike own old p q)
    (entityType : String) (scope : Option String)
    (items : List (SyncEntityItem π))
    (hitems : ∀ e ∈ entriesOfCall entityType scope items, own e) :
    (p.enqueue entityType scope items).1 = (q.enqueue entityType scope items).1 ∧
      Alike own old (p.enqueue entityType scope items).2
        (q.enqueue entityType scope items).2 := by
  obtain ⟨haccepted, hdropped, halike⟩ :=
    h.acceptItems hfresh entityType scope items hitems
  have hkept (r : ReceivePipeline π) :
      (r.enqueue entityType scope items).2 =
        { (r.acceptItems entityType scope items).2.2 with
          queue := (r.enqueue entityType scope items).2.queue } := by
    unfold ReceivePipeline.enqueue
    dsimp only
    split <;> rfl
  refine ⟨?_, ?_⟩
  · simp [ReceivePipeline.enqueue, haccepted, hdropped]
  · have hqueue : (p.enqueue entityType scope items).2.queue =
        (q.enqueue entityType scope items).2.queue := by
      rw [enqueue_queue, enqueue_queue, h.queue, haccepted]
    have hwaiting : ∀ e ∈ (p.enqueue entityType scope items).2.waiting, own e := by
      intro e he
      rw [enqueue_waiting, List.mem_append] at he
      rcases he with he | he
      · exact h.waiting e he
      · obtain ⟨item, hitem, rfl⟩ := List.mem_map.mp he
        exact hitems _ (List.mem_map_of_mem
          (acceptItems_subset p entityType scope items item hitem))
    rw [hkept p, hkept q] at *
    exact
      { queue := hqueue
        waiting := hwaiting
        limit := halike.limit
        limit' := halike.limit'
        orders := halike.orders
        left := ⟨halike.left.keys, halike.left.nodup⟩
        right := ⟨halike.right.keys, halike.right.nodup⟩ }

/-- A common queue of own batches can be put into pipelines that are alike. -/
theorem Alike.withQueue
    {p q : ReceivePipeline π} (h : Alike own old p q)
    (queue : List (SyncBatch π)) (hqueue : ∀ e ∈ entriesOf queue, own e) :
    Alike own old { p with queue := queue } { q with queue := queue } where
  queue := rfl
  waiting := hqueue
  limit := h.limit
  limit' := h.limit'
  orders := h.orders
  left := ⟨h.left.keys, h.left.nodup⟩
  right := ⟨h.right.keys, h.right.nodup⟩

end Alike

section SameView

variable {σ : Type u} {π : Type v} {ω : Type w}

def SyncPull.entries (pull : SyncPull π) : List (Entry π) :=
  pull.replies.flatMap (fun reply =>
    match reply with
    | .page items => entriesOfCall pull.entityType pull.scope items
    | .restart => [])

/-- The items of a push that go through the pipeline. -/
def Push.entries : Push π → List (Entry π)
  | .invalidation pulls => pulls.flatMap SyncPull.entries
  | .commit entityType scope item replayed =>
      { entityType := entityType, scope := scope, item := item } :: replayed
  | .deferred _ => []
  | .deliveryReceipt _ => []
  | .friendEvent _ => []
  | .statusItem item => entriesOfCall "channel_read_cursor" none [item]
  | .message item => entriesOfCall "message" none [item]

def InboundFrame.entries : InboundFrame π → List (Entry π)
  | .pushes messages => messages.flatMap Push.entries
  | .presenceChanged _ _ _ _ _ _ => []
  | .roomPublish _ _ _ _ _ _ => []
  | .ignored => []

variable {own : Entry π → Prop} {old : Finset String}

/-- Only own items were handed to the store. -/
def SyncResult.HandsOwn (own : Entry π → Prop) (r : SyncResult π) : Prop :=
  ∀ e ∈ entriesOf r.handed, own e

/-- The same work of one user after different histories. -/
structure SameView (own : Entry π → Prop) (old : Finset String)
    (a b : Active σ π) : Prop where
  store : a.store = b.store
  memory : a.memory = b.memory
  pipeline : Alike own old a.pipeline b.pipeline

theorem applyDrained_handed
    (apply : σ → SyncBatch π → Except Unit (List SdkEvent) × σ)
    (store : σ) (batches : List (SyncBatch π)) :
    (∀ b ∈ (applyDrained apply store batches).handed, b ∈ batches) ∧
      ∀ b ∈ (applyDrained apply store batches).failed, b ∈ batches := by
  induction batches generalizing store with
  | nil =>
      simp [applyDrained]
  | cons batch batches ih =>
      simp only [applyDrained]
      split
      · rename_i events store' happly
        obtain ⟨hhanded, hfailed⟩ := ih store'
        refine ⟨fun b hb => ?_, fun b hb => List.mem_cons_of_mem _ (hfailed b hb)⟩
        rcases List.mem_cons.mp hb with rfl | hb
        · exact List.mem_cons_self
        · exact List.mem_cons_of_mem _ (hhanded b hb)
      · simp

theorem mem_entriesOf
    {batches : List (SyncBatch π)} {e : Entry π} :
    e ∈ entriesOf batches ↔ ∃ b ∈ batches, e ∈ b.entries :=
  List.mem_flatMap

/--
Own batches that are taken out of the queue are applied alike, and alike a failed one
goes back.
-/
theorem SameView.applyDrained
    {a b : Active σ π} (h : SameView own old a b)
    (apply : σ → SyncBatch π → Except Unit (List SdkEvent) × σ)
    (batches : List (SyncBatch π))
    (hbatches : ∀ batch ∈ batches, ∀ e ∈ batch.entries, own e) :
    let d := Session.applyDrained apply a.store batches
    let left (p : ReceivePipeline π) : ReceivePipeline π :=
      d.failed.elim { p with queue := [] } ({ p with queue := [] }.requeueFront)
    (∀ e ∈ entriesOf d.handed, own e) ∧
      SameView own old
        { a with store := d.store, pipeline := left a.pipeline }
        { b with store := d.store, pipeline := left b.pipeline } := by
  intro d left
  obtain ⟨hhanded, hfailed⟩ := applyDrained_handed apply a.store batches
  refine ⟨fun e he => ?_, rfl, h.memory, ?_⟩
  · obtain ⟨batch, hbatch, he⟩ := mem_entriesOf.mp he
    exact hbatches batch (hhanded batch hbatch) e he
  · cases hd : d.failed with
    | none =>
        simp only [left, hd]
        exact h.pipeline.withQueue [] (by simp [entriesOf])
    | some batch =>
        simp only [left, hd]
        refine h.pipeline.withQueue [batch] (fun e he => ?_)
        obtain ⟨batch', hbatch', hin⟩ := mem_entriesOf.mp he
        rw [List.mem_singleton] at hbatch'
        subst hbatch'
        exact hbatches _ (hfailed _ hd) e hin

/-- What waits is own. -/
theorem SameView.queued_own
    {a b : Active σ π} (h : SameView own old a b)
    {batch : SyncBatch π} (hbatch : batch ∈ a.pipeline.queue) :
    ∀ e ∈ batch.entries, own e :=
  fun e he => h.pipeline.waiting e (mem_entriesOf.mpr ⟨batch, hbatch, he⟩)

theorem SameView.drain
    {a b : Active σ π} (h : SameView own old a b)
    (host : Host σ π ω) (env : ω) (bump : Bool) :
    (a.drain host env bump).1 = (b.drain host env bump).1 ∧
      (a.drain host env bump).1.HandsOwn own ∧
      SameView own old (a.drain host env bump).2 (b.drain host env bump).2 := by
  obtain ⟨hown, hview⟩ := h.applyDrained
    (fun store batch => host.applySyncEntities env store batch bump)
    a.pipeline.queue (fun _ hbatch => h.queued_own hbatch)
  simp only [Active.drain, drainBatches_eq, ← h.pipeline.queue, ← h.store]
  exact ⟨trivial, hown, hview⟩

/-- A dropped drain applied the same batches. -/
theorem SameView.dropDrain
    {a b : Active σ π} (h : SameView own old a b)
    (host : Host σ π ω) (env : ω) (drained : Nat) :
    (a.dropDrain host env drained).1 = (b.dropDrain host env drained).1 ∧
      (a.dropDrain host env drained).1.HandsOwn own ∧
      SameView own old (a.dropDrain host env drained).2
        (b.dropDrain host env drained).2 := by
  obtain ⟨hown, -⟩ := h.applyDrained
    (fun store batch => host.applySyncEntities env store batch false)
    (a.pipeline.queue.take drained)
    (fun _ hbatch => h.queued_own (List.mem_of_mem_take hbatch))
  simp only [Active.dropDrain, drainBatches_eq, ← h.pipeline.queue, ← h.store]
  exact ⟨trivial, hown, rfl, h.memory, h.pipeline.withQueue [] (by simp [entriesOf])⟩

variable (hfresh : ∀ e, own e → entryKey e ∉ old)

include hfresh

/-- Items are enqueued alike. -/
theorem SameView.enqueue
    {a b : Active σ π} (h : SameView own old a b)
    (entityType : String) (scope : Option String)
    (items : List (SyncEntityItem π))
    (hitems : ∀ e ∈ entriesOfCall entityType scope items, own e) :
    let filled (a : Active σ π) := a.pipeline.enqueue entityType scope items
    let counted (a : Active σ π) : Active σ π :=
      { a with
        pipeline := (filled a).2
        memory := a.memory.startSync.countSync (filled a).1.queuedItems
          (filled a).1.droppedDuplicates }
    (filled a).1 = (filled b).1 ∧ SameView own old (counted a) (counted b) := by
  intro filled counted
  obtain ⟨hstats, hp⟩ := h.pipeline.enqueue hfresh entityType scope items hitems
  exact ⟨hstats, h.store, by simp only [counted, filled, hstats, h.memory], hp⟩

theorem SameView.enqueueAndApplySyncItems
    {a b : Active σ π} (h : SameView own old a b)
    (host : Host σ π ω) (env : ω) (entityType : String) (scope : Option String)
    (items : List (SyncEntityItem π)) (bump : Bool)
    (hitems : ∀ e ∈ entriesOfCall entityType scope items, own e) :
    (a.enqueueAndApplySyncItems host env entityType scope items bump).1 =
        (b.enqueueAndApplySyncItems host env entityType scope items bump).1 ∧
      (a.enqueueAndApplySyncItems host env entityType scope items
        bump).1.HandsOwn own ∧
      SameView own old
        (a.enqueueAndApplySyncItems host env entityType scope items bump).2
        (b.enqueueAndApplySyncItems host env entityType scope items bump).2 := by
  obtain ⟨hstats, hq⟩ := h.enqueue hfresh entityType scope items hitems
  dsimp only at hstats hq
  rw [hstats] at hq
  obtain ⟨hr, hown, hview⟩ := hq.drain host env bump
  simp only [Active.enqueueAndApplySyncItems, hstats]
  rw [← hr]
  split
  · exact ⟨rfl, hown, hview.store, by rw [hview.memory], hview.pipeline⟩
  · exact ⟨rfl, hown, hview⟩

/-- A dropped call leaves the same behind. -/
theorem SameView.dropEnqueueAndApply
    {a b : Active σ π} (h : SameView own old a b)
    (host : Host σ π ω) (env : ω) (entityType : String) (scope : Option String)
    (items : List (SyncEntityItem π)) (drained : Nat)
    (hitems : ∀ e ∈ entriesOfCall entityType scope items, own e) :
    (a.dropEnqueueAndApply host env entityType scope items drained).1 =
        (b.dropEnqueueAndApply host env entityType scope items drained).1 ∧
      (a.dropEnqueueAndApply host env entityType scope items
        drained).1.HandsOwn own ∧
      SameView own old
        (a.dropEnqueueAndApply host env entityType scope items drained).2
        (b.dropEnqueueAndApply host env entityType scope items drained).2 := by
  obtain ⟨hstats, hq⟩ := h.enqueue hfresh entityType scope items hitems
  dsimp only at hstats hq
  rw [hstats] at hq
  obtain ⟨hr, hown, hview⟩ := hq.dropDrain host env drained
  simp only [Active.dropEnqueueAndApply, hstats]
  rw [← hr]
  exact ⟨rfl, hown, hview⟩

theorem enqueueReplies_alike
    {p q : ReceivePipeline π} (h : Alike own old p q)
    (entityType : String) (scope : Option String)
    (queued dropped : Nat) (replies : List (SyncReply π))
    (hitems : ∀ items, .page items ∈ replies →
      ∀ e ∈ entriesOfCall entityType scope items, own e) :
    (enqueueReplies entityType scope p queued dropped replies).1 =
        (enqueueReplies entityType scope q queued dropped replies).1 ∧
      (enqueueReplies entityType scope p queued dropped replies).2.1 =
        (enqueueReplies entityType scope q queued dropped replies).2.1 ∧
      Alike own old (enqueueReplies entityType scope p queued dropped replies).2.2
        (enqueueReplies entityType scope q queued dropped replies).2.2 := by
  induction replies generalizing p q queued dropped with
  | nil =>
      exact ⟨rfl, rfl, h⟩
  | cons reply replies ih =>
      have hrest : ∀ items, SyncReply.page items ∈ replies →
          ∀ e ∈ entriesOfCall entityType scope items, own e :=
        fun items hi => hitems items (List.mem_cons_of_mem _ hi)
      cases reply with
      | restart =>
          exact ih h 0 0 hrest
      | page items =>
          obtain ⟨hstats, hp⟩ := h.enqueue hfresh entityType scope items
            (hitems items List.mem_cons_self)
          simp only [enqueueReplies, hstats]
          exact ih hp _ _ hrest

/-- The replies of a call are enqueued alike. -/
theorem SameView.enqueueReplies
    {a b : Active σ π} (h : SameView own old a b) (pull : SyncPull π)
    (hpull : ∀ e ∈ pull.entries, own e) :
    let filled (a : Active σ π) :=
      Session.enqueueReplies pull.entityType pull.scope a.pipeline 0 0 pull.replies
    (filled a).1 = (filled b).1 ∧ (filled a).2.1 = (filled b).2.1 ∧
      SameView own old
        { a with pipeline := (filled a).2.2, memory := a.memory.startSync }
        { b with pipeline := (filled b).2.2, memory := b.memory.startSync } := by
  intro filled
  have hitems : ∀ items, SyncReply.page items ∈ pull.replies →
      ∀ e ∈ entriesOfCall pull.entityType pull.scope items, own e :=
    fun items hi e he => hpull e (List.mem_flatMap.mpr ⟨_, hi, he⟩)
  obtain ⟨hqueued, hdropped, hp⟩ := enqueueReplies_alike hfresh h.pipeline
    pull.entityType pull.scope 0 0 pull.replies hitems
  exact ⟨hqueued, hdropped, h.store, by rw [h.memory], hp⟩

theorem SameView.syncEntities
    {a b : Active σ π} (h : SameView own old a b)
    (host : Host σ π ω) (env : ω) (pull : SyncPull π)
    (hpull : ∀ e ∈ pull.entries, own e) :
    (a.syncEntities host env pull).1 = (b.syncEntities host env pull).1 ∧
      (a.syncEntities host env pull).1.HandsOwn own ∧
      SameView own old (a.syncEntities host env pull).2
        (b.syncEntities host env pull).2 := by
  obtain ⟨hqueued, hdropped, hq⟩ := h.enqueueReplies hfresh pull hpull
  simp only [Active.syncEntities, hqueued, hdropped]
  by_cases hc : pull.complete = true
  · obtain ⟨hr, hown, hview⟩ := hq.drain host env false
    simp only [if_pos hc]
    rw [← hr, ← hview.store]
    split
    · split
      · exact ⟨rfl, hown, rfl, by rw [hview.memory], hview.pipeline⟩
      · exact ⟨rfl, hown, rfl, hview.memory, hview.pipeline⟩
    · exact ⟨rfl, hown, hview⟩
  · simp only [if_neg hc]
    exact ⟨trivial, by simp [SyncResult.HandsOwn, entriesOf], hq⟩

/-- A dropped call leaves the same behind. -/
theorem SameView.dropSync
    {a b : Active σ π} (h : SameView own old a b)
    (host : Host σ π ω) (env : ω) (pull : SyncPull π) (drained : Nat)
    (hpull : ∀ e ∈ pull.entries, own e) :
    (a.dropSync host env pull drained).1 = (b.dropSync host env pull drained).1 ∧
      (a.dropSync host env pull drained).1.HandsOwn own ∧
      SameView own old (a.dropSync host env pull drained).2
        (b.dropSync host env pull drained).2 := by
  obtain ⟨hqueued, hdropped, hq⟩ := h.enqueueReplies hfresh pull hpull
  simp only [Active.dropSync, hqueued, hdropped]
  split
  · obtain ⟨hr, hown, hview⟩ := hq.dropDrain host env drained
    rw [← hr]
    exact ⟨rfl, hown, hview⟩
  · exact ⟨rfl, by simp [SyncResult.HandsOwn, entriesOf], hq⟩

end SameView

section SameWork

variable {σ : Type u} {π : Type v} {ω : Type w}
variable {own : Entry π → Prop} {old : Finset String}

/-- The same frame in progress, apart from what the pipelines remember. -/
structure SameWork (own : Entry π → Prop) (old : Finset String)
    (f g : FrameWork σ π) : Prop where
  active : SameView own old f.active g.active
  rest : { f with active := g.active } = g
  results : ∀ r ∈ f.results, r.HandsOwn own
  messageItems : ∀ e ∈ entriesOfCall "message" none f.messageItems, own e
  readCursorItems :
    ∀ e ∈ entriesOfCall "channel_read_cursor" none f.readCursorItems, own e

/-- Both may take the same memory. -/
theorem SameView.withMemory
    {a b : Active σ π} (h : SameView own old a b) {m m' : Memory}
    (hm : m = m') :
    SameView own old { a with memory := m } { b with memory := m' } where
  store := h.store
  memory := hm
  pipeline := h.pipeline

/-- Events are reported alike. -/
theorem SameView.push
    {a b : Active σ π} (h : SameView own old a b) (events : List SdkEvent) :
    SameView own old (a.push events) (b.push events) where
  store := h.store
  memory := by simp only [Active.push, h.memory]
  pipeline := h.pipeline

/-- The last sync call is reported alike. -/
theorem SameView.queueLastSyncEvents
    {a b : Active σ π} (h : SameView own old a b)
    (entityType : String) (scope : Option String) (applied : Nat) :
    SameView own old (a.queueLastSyncEvents entityType scope applied)
      (b.queueLastSyncEvents entityType scope applied) := by
  simp only [Active.queueLastSyncEvents, ← h.memory]
  exact h.push _

theorem SameWork.ok_eq
    {f g : FrameWork σ π} (h : SameWork own old f g) : f.ok = g.ok := by
  rw [← h.rest]

variable (hfresh : ∀ e, own e → entryKey e ∉ old)

include hfresh

theorem SameWork.pull
    (host : Host σ π ω) (env : ω) (pulls : List (SyncPull π))
    (hpulls : ∀ e ∈ pulls.flatMap SyncPull.entries, own e)
    {f g : FrameWork σ π} (h : SameWork own old f g) :
    SameWork own old (f.pull host env pulls) (g.pull host env pulls) := by
  induction pulls generalizing f g with
  | nil =>
      exact h
  | cons pull pulls ih =>
      rw [List.flatMap_cons] at hpulls
      obtain ⟨hr, hown, hview⟩ := h.active.syncEntities hfresh host env pull
        (fun e he => hpulls e (List.mem_append_left _ he))
      have hresults : ∀ r ∈ f.results ++ [(f.active.syncEntities host env pull).1],
          r.HandsOwn own := by
        intro r hmem
        rcases List.mem_append.mp hmem with hmem | hmem
        · exact h.results r hmem
        · rw [List.mem_singleton] at hmem
          exact hmem ▸ hown
      obtain ⟨factive, results, messageItems, readCursorItems, receipts, applied,
        ok⟩ := f
      obtain ⟨gactive, results', messageItems', readCursorItems', receipts',
        applied', ok'⟩ := g
      cases h.rest
      simp only [FrameWork.pull]
      rw [← hr]
      split
      · exact ih (fun e he => hpulls e (List.mem_append_right _ he))
          { active := hview.queueLastSyncEvents _ _ _
            rest := rfl
            results := hresults
            messageItems := h.messageItems
            readCursorItems := h.readCursorItems }
      · exact
          { active := hview
            rest := rfl
            results := hresults
            messageItems := h.messageItems
            readCursorItems := h.readCursorItems }

theorem SameWork.sync
    {f g : FrameWork σ π} (h : SameWork own old f g)
    (host : Host σ π ω) (env : ω) (entityType : String) (scope : Option String)
    (items : List (SyncEntityItem π))
    (hitems : ∀ e ∈ entriesOfCall entityType scope items, own e) :
    SameWork own old (f.sync host env entityType scope items)
      (g.sync host env entityType scope items) := by
  obtain ⟨hr, hown, hview⟩ := h.active.enqueueAndApplySyncItems hfresh host env
    entityType scope items true hitems
  obtain ⟨factive, results, messageItems, readCursorItems, receipts, applied,
    ok⟩ := f
  obtain ⟨gactive, results', messageItems', readCursorItems', receipts',
    applied', ok'⟩ := g
  cases h.rest
  simp only [FrameWork.sync]
  rw [← hr]
  refine
    { active := hview
      rest := rfl
      results := ?_
      messageItems := h.messageItems
      readCursorItems := h.readCursorItems }
  intro r hmem
  rcases List.mem_append.mp hmem with hmem | hmem
  · exact h.results r hmem
  · rw [List.mem_singleton] at hmem
    exact hmem ▸ hown

theorem SameWork.replay
    (host : Host σ π ω) (env : ω) (replayed : List (Entry π))
    (hreplayed : ∀ e ∈ replayed, own e)
    {f g : FrameWork σ π} (h : SameWork own old f g) :
    SameWork own old (f.replay host env replayed) (g.replay host env replayed) := by
  induction replayed generalizing f g with
  | nil =>
      exact h
  | cons e es ih =>
      have hone := h.sync hfresh host env e.entityType e.scope [e.item] (by
        intro x hx
        rw [entriesOfCall, List.map_singleton, List.mem_singleton] at hx
        exact hx ▸ hreplayed e List.mem_cons_self)
      have happlied : (f.sync host env e.entityType e.scope [e.item]).applied -
            f.applied =
          (g.sync host env e.entityType e.scope [e.item]).applied - g.applied := by
        rw [← hone.rest, ← h.rest]
      have hstored (store : σ) : SameView own old
          { (f.sync host env e.entityType e.scope [e.item]).active with
            store := store }
          { (g.sync host env e.entityType e.scope [e.item]).active with
            store := store } :=
        ⟨rfl, hone.active.memory, hone.active.pipeline⟩
      simp only [FrameWork.replay, ← h.ok_eq, ← hone.ok_eq, ← hone.active.store,
        ← happlied]
      rw [← hone.rest]
      split
      · split
        · split
          · exact ih (fun x hx => hreplayed x (List.mem_cons_of_mem _ hx))
              { active := (hstored _).queueLastSyncEvents _ _ _
                rest := rfl
                results := hone.results
                messageItems := hone.messageItems
                readCursorItems := hone.readCursorItems }
          · exact
              { active := hstored _
                rest := rfl
                results := hone.results
                messageItems := hone.messageItems
                readCursorItems := hone.readCursorItems }
        · exact hone.rest ▸ hone
      · exact h

theorem SameWork.take
    {f g : FrameWork σ π} (h : SameWork own old f g)
    (host : Host σ π ω) (env : ω) (push : Push π)
    (hpush : ∀ e ∈ push.entries, own e) :
    SameWork own old (f.take host env push) (g.take host env push) := by
  have hrest := h.rest
  cases push with
  | invalidation pulls =>
      exact SameWork.pull hfresh host env pulls hpush h
  | commit entityType scope item replayed =>
      obtain ⟨hitem, hreplayed⟩ := List.forall_mem_cons.mp hpush
      refine SameWork.replay hfresh host env replayed hreplayed
        (h.sync hfresh host env entityType scope [item] (fun e he => ?_))
      rw [entriesOfCall, List.map_singleton, List.mem_singleton] at he
      exact he ▸ hitem
  | deferred item =>
      rw [← hrest]
      exact
        { active := ⟨by simp only [FrameWork.take, h.active.store],
            h.active.memory, h.active.pipeline⟩
          rest := rfl
          results := h.results
          messageItems := h.messageItems
          readCursorItems := h.readCursorItems }
  | deliveryReceipt receipt =>
      rw [← hrest]
      exact
        { active := h.active
          rest := rfl
          results := h.results
          messageItems := h.messageItems
          readCursorItems := h.readCursorItems }
  | friendEvent peerUid =>
      rw [← hrest]
      exact
        { active := h.active.push _
          rest := rfl
          results := h.results
          messageItems := h.messageItems
          readCursorItems := h.readCursorItems }
  | statusItem item =>
      rw [← hrest]
      refine
        { active := h.active
          rest := rfl
          results := h.results
          messageItems := h.messageItems
          readCursorItems := fun e he => ?_ }
      rw [FrameWork.take, entriesOfCall, List.map_append, List.mem_append] at he
      exact he.elim (h.readCursorItems e) (hpush e)
  | message item =>
      rw [← hrest]
      refine
        { active := h.active
          rest := rfl
          results := h.results
          messageItems := fun e he => ?_
          readCursorItems := h.readCursorItems }
      rw [FrameWork.take, entriesOfCall, List.map_append, List.mem_append] at he
      exact he.elim (h.messageItems e) (hpush e)

theorem SameWork.takeAll
    (host : Host σ π ω) (env : ω) (pushes : List (Push π))
    (hpushes : ∀ e ∈ pushes.flatMap Push.entries, own e)
    {f g : FrameWork σ π} (h : SameWork own old f g) :
    SameWork own old (f.takeAll host env pushes) (g.takeAll host env pushes) := by
  induction pushes generalizing f g with
  | nil =>
      exact h
  | cons push pushes ih =>
      rw [List.flatMap_cons] at hpushes
      have hone := h.take hfresh host env push
        (fun e he => hpushes e (List.mem_append_left _ he))
      simp only [FrameWork.takeAll, ← hone.ok_eq]
      split
      · exact ih (fun e he => hpushes e (List.mem_append_right _ he)) hone
      · exact hone

theorem SameWork.syncCollected
    {f g : FrameWork σ π} (h : SameWork own old f g)
    (host : Host σ π ω) (env : ω) (entityType : String)
    (items : List (SyncEntityItem π))
    (hitems : ∀ e ∈ entriesOfCall entityType none items, own e) :
    SameWork own old (f.syncCollected host env entityType items)
      (g.syncCollected host env entityType items) := by
  simp only [FrameWork.syncCollected, ← h.ok_eq]
  split
  · exact h.sync hfresh host env entityType none items hitems
  · exact h

omit hfresh in
theorem SameView.deliver
    (host : Host σ π ω) (env : ω) (receipts : List DeliveryReceipt)
    {a b : Active σ π} (h : SameView own old a b) :
    SameView own old (a.deliver host env receipts)
      (b.deliver host env receipts) := by
  induction receipts generalizing a b with
  | nil =>
      exact h
  | cons receipt receipts ih =>
      have hstored (store : σ) :
          SameView own old { a with store := store } { b with store := store } :=
        ⟨rfl, h.memory, h.pipeline⟩
      simp only [Active.deliver, ← h.store]
      split
      · exact ih (hstored _)
      · exact ih ((hstored _).push _)

theorem SameWork.finish
    {f g : FrameWork σ π} (h : SameWork own old f g)
    (host : Host σ π ω) (env : ω) :
    SameWork own old (f.finish host env) (g.finish host env) := by
  have hmessages : f.messageItems = g.messageItems := by rw [← h.rest]
  have hfirst := h.syncCollected hfresh host env "message" f.messageItems
    h.messageItems
  have hcursors : (f.syncCollected host env "message" f.messageItems).readCursorItems =
      (g.syncCollected host env "message" f.messageItems).readCursorItems := by
    rw [← hfirst.rest]
  have hsecond := hfirst.syncCollected hfresh host env "channel_read_cursor" _
    hfirst.readCursorItems
  simp only [FrameWork.finish, ← hmessages, ← hcursors]
  rw [← hsecond.ok_eq]
  split
  · rw [← hsecond.rest]
    exact
      { active := hsecond.active.deliver host env _
        rest := rfl
        results := hsecond.results
        messageItems := hsecond.messageItems
        readCursorItems := hsecond.readCursorItems }
  · exact hsecond

/-- Only own items were handed to the store during a command. -/
def Output.HandsOwn (own : Entry π → Prop) (o : Output π) : Prop :=
  ∀ r ∈ o.results, r.HandsOwn own

omit hfresh in
theorem Output.silent_handsOwn : (Output.silent : Output π).HandsOwn own := by
  intro r hr
  cases hr

/-- A frame of own items is handled alike. -/
theorem SameView.handleInboundFrame
    {a b : Active σ π} (h : SameView own old a b)
    (host : Host σ π ω) (env : ω) (frame : InboundFrame π)
    (hframe : ∀ e ∈ frame.entries, own e) :
    (a.handleInboundFrame host env frame).1 =
        (b.handleInboundFrame host env frame).1 ∧
      (a.handleInboundFrame host env frame).2.1 =
        (b.handleInboundFrame host env frame).2.1 ∧
      (a.handleInboundFrame host env frame).2.1.HandsOwn own ∧
      SameView own old (a.handleInboundFrame host env frame).2.2
        (b.handleInboundFrame host env frame).2.2 := by
  cases frame with
  | pushes messages =>
      have hstart : SameWork own old
          { active := a, results := [], messageItems := [], readCursorItems := [],
            deliveryReceipts := [], applied := 0, ok := true }
          { active := b, results := [], messageItems := [], readCursorItems := [],
            deliveryReceipts := [], applied := 0, ok := true } :=
        { active := h
          rest := rfl
          results := by simp
          messageItems := by simp [entriesOfCall]
          readCursorItems := by simp [entriesOfCall] }
      have hend := (SameWork.takeAll hfresh host env messages hframe
        hstart).finish hfresh host env
      simp only [Active.handleInboundFrame]
      rw [← hend.rest, ← hend.active.memory]
      exact ⟨rfl, rfl, hend.results, hend.active⟩
  | presenceChanged channelId snapshot payload publisher id timestamp =>
      refine ⟨rfl, rfl, Output.silent_handsOwn, ?_⟩
      exact (h.withMemory (by rw [h.memory])).push _
  | roomPublish channelId topic payload publisher id timestamp =>
      simp only [Active.handleInboundFrame, ← h.memory]
      split
      · exact ⟨rfl, rfl, Output.silent_handsOwn, h.withMemory rfl⟩
      · exact ⟨rfl, rfl, Output.silent_handsOwn, (h.withMemory rfl).push _⟩
  | ignored =>
      exact ⟨rfl, rfl, Output.silent_handsOwn, h⟩

theorem SameView.replayFrames
    (host : Host σ π ω) (env : ω) (frames : List (InboundFrame π))
    (hframes : ∀ frame ∈ frames, ∀ e ∈ frame.entries, own e)
    {a b : Active σ π} (h : SameView own old a b) :
    (a.replayFrames host env frames).1 = (b.replayFrames host env frames).1 ∧
      (∀ o ∈ (a.replayFrames host env frames).1, o.HandsOwn own) ∧
      SameView own old (a.replayFrames host env frames).2
        (b.replayFrames host env frames).2 := by
  induction frames generalizing a b with
  | nil =>
      exact ⟨rfl, by simp [Active.replayFrames], h⟩
  | cons frame frames ih =>
      obtain ⟨hok, hout, hown, hview⟩ := h.handleInboundFrame hfresh host env
        frame (hframes frame List.mem_cons_self)
      obtain ⟨houts, howns, hviews⟩ := ih
        (fun f hf => hframes f (List.mem_cons_of_mem _ hf)) hview
      simp only [Active.replayFrames, ← hok, ← hout]
      split
      · refine ⟨by rw [houts], fun o ho => ?_, hviews⟩
        rcases List.mem_cons.mp ho with rfl | ho
        · exact hown
        · exact howns o ho
      · refine ⟨rfl, fun o ho => ?_, hview⟩
        rw [List.mem_singleton] at ho
        exact ho ▸ hown

end SameWork

end Session
end PrivchatSdk
