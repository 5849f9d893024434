import Mathlib.Data.Finset.Basic
import Mathlib.Data.List.Perm.Basic
import PrivchatSdk.Lib.Run

/-!
# The receive pipeline

Sync items enter a queue once: their key is remembered, and a second delivery is
dropped while the key is.  A drain takes everything out of the queue and applies
batch after batch.

The ledger counts what was accepted, what was applied and what a drain lost.
The three always add up (`ledger_balanced`), and nothing is lost in exactly the
runs whose drains fail on their last batch at most and are not cancelled before
everything is applied (`accepted_accounted_iff`).
-/

namespace PrivchatSdk
namespace Receive

universe u

section Pipeline

variable {π : Type u}

/-- One item of a sync page. -/
structure SyncEntityItem (π : Type u) where
  entityId : String
  version : Nat
  deleted : Bool
  payload : Option π
  deriving DecidableEq

structure SyncBatch (π : Type u) where
  entityType : String
  scope : Option String
  items : List (SyncEntityItem π)
  deriving DecidableEq

structure ReceivePipelineStats where
  queuedItems : Nat
  droppedDuplicates : Nat
  deriving DecidableEq, Repr

structure ReceivePipeline (π : Type u) where
  queue : List (SyncBatch π)
  recentKeys : Finset String
  recentKeyOrder : List String
  recentKeyLimit : Nat

/-- `ReceivePipeline::new`. -/
def ReceivePipeline.new (recentKeyLimit : Nat) : ReceivePipeline π where
  queue := []
  recentKeys := ∅
  recentKeyOrder := []
  recentKeyLimit := max recentKeyLimit 512

/-- `dedupe_key`. -/
def dedupeKey
    (entityType : String) (scope : Option String) (item : SyncEntityItem π) :
    String :=
  entityType ++ "|" ++ scope.getD "" ++ "|" ++ item.entityId ++ "|" ++
    toString item.version ++ "|" ++ toString item.deleted

/-- The `while` loop of `remember_key`: forget the oldest keys beyond the limit. -/
def evictKeys (limit : Nat) :
    Finset String → List String → Finset String × List String
  | keys, [] => (keys, [])
  | keys, old :: order =>
      if limit < (old :: order).length then
        evictKeys limit (keys.erase old) order
      else
        (keys, old :: order)

/-- `remember_key`. -/
def ReceivePipeline.rememberKey (p : ReceivePipeline π) (key : String) :
    ReceivePipeline π :=
  let evicted := evictKeys p.recentKeyLimit (insert key p.recentKeys)
    (p.recentKeyOrder ++ [key])
  { p with recentKeys := evicted.1, recentKeyOrder := evicted.2 }

/-- The loop of `enqueue`: the accepted items, the duplicates, the keys kept. -/
def ReceivePipeline.acceptItems
    (entityType : String) (scope : Option String) :
    ReceivePipeline π → List (SyncEntityItem π) →
      List (SyncEntityItem π) × Nat × ReceivePipeline π
  | p, [] => ([], 0, p)
  | p, item :: items =>
      let key := dedupeKey entityType scope item
      if key ∈ p.recentKeys then
        let (accepted, dropped, p') := acceptItems entityType scope p items
        (accepted, dropped + 1, p')
      else
        let (accepted, dropped, p') :=
          acceptItems entityType scope (p.rememberKey key) items
        (item :: accepted, dropped, p')

/-- `enqueue`. -/
def ReceivePipeline.enqueue
    (p : ReceivePipeline π) (entityType : String) (scope : Option String)
    (items : List (SyncEntityItem π)) :
    ReceivePipelineStats × ReceivePipeline π :=
  let (accepted, dropped, p') := acceptItems entityType scope p items
  ({ queuedItems := accepted.length, droppedDuplicates := dropped },
    if accepted.isEmpty then p'
    else { p' with
      queue := p'.queue ++
        [{ entityType := entityType, scope := scope, items := accepted }] })

/-- `pop_batch`. -/
def ReceivePipeline.popBatch (p : ReceivePipeline π) :
    Option (SyncBatch π) × ReceivePipeline π :=
  match p.queue with
  | [] => (none, p)
  | batch :: queue => (some batch, { p with queue := queue })

/-- `requeue_front`. -/
def ReceivePipeline.requeueFront
    (p : ReceivePipeline π) (batch : SyncBatch π) : ReceivePipeline π :=
  { p with queue := batch :: p.queue }

/-- Pop until nothing is left, at most `fuel` times. -/
def drainBatchesFrom :
    Nat → ReceivePipeline π → List (SyncBatch π) × ReceivePipeline π
  | 0, p => ([], p)
  | fuel + 1, p =>
      match p.popBatch with
      | (none, p') => ([], p')
      | (some batch, p') =>
          let (batches, p'') := drainBatchesFrom fuel p'
          (batch :: batches, p'')

/-- `SyncCommitApplier::drain_batches`; the last pop finds the queue empty. -/
def drainBatches (p : ReceivePipeline π) :
    List (SyncBatch π) × ReceivePipeline π :=
  drainBatchesFrom (p.queue.length + 1) p

theorem drainBatchesFrom_eq
    (fuel : Nat) (p : ReceivePipeline π) (h : p.queue.length < fuel) :
    drainBatchesFrom fuel p = (p.queue, { p with queue := [] }) := by
  induction fuel generalizing p with
  | zero =>
      omega
  | succ fuel ih =>
      obtain ⟨queue, keys, order, limit⟩ := p
      cases queue with
      | nil =>
          rfl
      | cons batch queue =>
          have hlen : queue.length < fuel := by simpa using h
          simp only [drainBatchesFrom, ReceivePipeline.popBatch]
          rw [ih _ hlen]

/-- A drain takes out the whole queue at once. -/
theorem drainBatches_eq (p : ReceivePipeline π) :
    drainBatches p = (p.queue, { p with queue := [] }) :=
  drainBatchesFrom_eq _ p (Nat.lt_succ_self _)

end Pipeline

section Keys

variable {π : Type u}

theorem evictKeys_eq (limit : Nat) (keys : Finset String) (order : List String) :
    evictKeys limit keys order =
      (keys \ (order.take (order.length - limit)).toFinset,
        order.drop (order.length - limit)) := by
  induction order generalizing keys with
  | nil =>
      simp [evictKeys]
  | cons old order ih =>
      unfold evictKeys
      split
      · rename_i hlt
        have hlen : (old :: order).length - limit = order.length - limit + 1 := by
          rw [List.length_cons] at hlt ⊢
          omega
        rw [ih, hlen, List.take_succ_cons, List.drop_succ_cons, List.toFinset_cons,
          Finset.erase_sdiff_comm, Finset.sdiff_insert]
      · rename_i hle
        have hlen : (old :: order).length - limit = 0 := by omega
        rw [hlen]
        simp

/-- The remembered keys are those of the order list, each once. -/
structure ReceivePipeline.WellKept (p : ReceivePipeline π) : Prop where
  keys : p.recentKeys = p.recentKeyOrder.toFinset
  nodup : p.recentKeyOrder.Nodup

theorem ReceivePipeline.wellKept_new (limit : Nat) :
    (ReceivePipeline.new limit : ReceivePipeline π).WellKept where
  keys := by simp [ReceivePipeline.new]
  nodup := by simp [ReceivePipeline.new]

theorem ReceivePipeline.rememberKey_order
    (p : ReceivePipeline π) (key : String) :
    (p.rememberKey key).recentKeyOrder =
      (p.recentKeyOrder ++ [key]).drop
        (p.recentKeyOrder.length + 1 - p.recentKeyLimit) := by
  simp [ReceivePipeline.rememberKey, evictKeys_eq]

theorem ReceivePipeline.WellKept.rememberKey
    {p : ReceivePipeline π} (h : p.WellKept) {key : String}
    (hnew : key ∉ p.recentKeys) :
    (p.rememberKey key).WellKept := by
  have hnodup : (p.recentKeyOrder ++ [key]).Nodup := by
    rw [List.nodup_append]
    rw [h.keys, List.mem_toFinset] at hnew
    refine ⟨h.nodup, by simp, ?_⟩
    rintro a ha b hb rfl
    rw [List.mem_singleton] at hb
    exact hnew (hb ▸ ha)
  refine { keys := ?_, nodup := ?_ }
  · have hall : insert key p.recentKeys = (p.recentKeyOrder ++ [key]).toFinset := by
      ext k
      simp only [h.keys, Finset.mem_insert, List.mem_toFinset, List.mem_append,
        List.mem_singleton]
      exact or_comm
    simp only [ReceivePipeline.rememberKey, evictKeys_eq, hall]
    generalize (p.recentKeyOrder ++ [key]).length - p.recentKeyLimit = n
    generalize p.recentKeyOrder ++ [key] = order at hnodup
    have hdisj := List.disjoint_take_drop hnodup (Nat.le_refl n)
    ext k
    rw [Finset.mem_sdiff, List.mem_toFinset, List.mem_toFinset, List.mem_toFinset]
    constructor
    · rintro ⟨hk, htake⟩
      rw [← List.take_append_drop n order, List.mem_append] at hk
      exact hk.resolve_left htake
    · intro hk
      exact ⟨List.mem_of_mem_drop hk, fun htake => hdisj htake hk⟩
  · rw [ReceivePipeline.rememberKey_order]
    exact hnodup.sublist (List.drop_sublist _ _)
end Keys

section Apply

variable {π : Type u}

/-- An accepted item with the entity type and scope it came under. -/
structure Entry (π : Type u) where
  entityType : String
  scope : Option String
  item : SyncEntityItem π
  deriving DecidableEq

def SyncBatch.entries (batch : SyncBatch π) : List (Entry π) :=
  batch.items.map (fun item =>
    { entityType := batch.entityType, scope := batch.scope, item := item })

/-- The items of several batches. -/
def entriesOf (batches : List (SyncBatch π)) : List (Entry π) :=
  batches.flatMap SyncBatch.entries

/-- The items that wait in the queue. -/
def ReceivePipeline.waiting (p : ReceivePipeline π) : List (Entry π) :=
  entriesOf p.queue

/--
How the application of one batch ends: the last is a future dropped while the
batch is being applied, after its first `applied` items.
-/
inductive ApplyOutcome where
  | ok
  | err
  | cancelled (applied : Nat)
  deriving DecidableEq, Repr

/-- What a drain did with the batches it took out. -/
structure DrainResult (π : Type u) where
  pipeline : ReceivePipeline π
  applied : List (Entry π)
  lost : List (Entry π)

/--
The loop over the drained batches.  A failed batch goes back to the front and
the call returns; the batches after it are in no place any more.
-/
def applyBatches (p : ReceivePipeline π) :
    List (SyncBatch π) → List ApplyOutcome → DrainResult π
  | [], _ => { pipeline := p, applied := [], lost := [] }
  | batch :: batches, [] =>
      let rest := applyBatches p batches []
      { rest with applied := batch.entries ++ rest.applied }
  | batch :: batches, .ok :: outcomes =>
      let rest := applyBatches p batches outcomes
      { rest with applied := batch.entries ++ rest.applied }
  | batch :: batches, .err :: _ =>
      { pipeline := p.requeueFront batch
        applied := []
        lost := entriesOf batches }
  | batch :: batches, .cancelled applied :: _ =>
      { pipeline := p
        applied := batch.entries.take applied
        lost := batch.entries.drop applied ++ entriesOf batches }

/-- The drain of `enqueue_and_apply_sync_items` and of `sync_entities`. -/
def drainAndApply (p : ReceivePipeline π) (outcomes : List ApplyOutcome) :
    DrainResult π :=
  let (batches, p') := drainBatches p
  applyBatches p' batches outcomes

/--
Only the last batch may fail, and a cancelled one must be the last and have all
its items applied.
-/
def LosesNothing : List (SyncBatch π) → List ApplyOutcome → Prop
  | [], _ => True
  | _ :: _, [] => True
  | _ :: batches, .ok :: outcomes => LosesNothing batches outcomes
  | _ :: batches, .err :: _ => batches = []
  | batch :: batches, .cancelled applied :: _ =>
      batch.items.length ≤ applied ∧ batches = []

/-- The drained items are applied, back in the queue, or lost. -/
theorem applyBatches_balanced
    (p : ReceivePipeline π) (batches : List (SyncBatch π))
    (outcomes : List ApplyOutcome) :
    ((applyBatches p batches outcomes).applied ++
        (applyBatches p batches outcomes).pipeline.waiting ++
        (applyBatches p batches outcomes).lost).Perm
      (p.waiting ++ entriesOf batches) := by
  induction batches generalizing outcomes with
  | nil =>
      simp [applyBatches, entriesOf]
  | cons batch batches ih =>
      have hcons : entriesOf (batch :: batches) =
          batch.entries ++ entriesOf batches := rfl
      have happlied (rest : List (Entry π))
          (h : rest.Perm (p.waiting ++ entriesOf batches)) :
          (batch.entries ++ rest).Perm
            (p.waiting ++ entriesOf (batch :: batches)) := by
        rw [hcons, ← List.append_assoc]
        refine (h.append_left batch.entries).trans ?_
        rw [← List.append_assoc]
        exact List.perm_append_comm.append_right _
      cases outcomes with
      | nil =>
          simpa [applyBatches, List.append_assoc] using happlied _ (ih [])
      | cons outcome outcomes =>
          cases outcome with
          | ok =>
              simpa [applyBatches, List.append_assoc] using
                happlied _ (ih outcomes)
          | err =>
              have hfront : (p.requeueFront batch).waiting =
                  batch.entries ++ p.waiting := rfl
              simp only [applyBatches, List.nil_append, hfront,
                List.append_assoc]
              exact happlied _ (List.Perm.refl _)
          | cancelled applied =>
              simp only [applyBatches]
              have hsplit := List.take_append_drop applied batch.entries
              refine List.Perm.trans ?_ (happlied _ (List.Perm.refl _))
              rw [← hsplit, List.append_assoc, List.append_assoc, hsplit]
              refine List.Perm.append_left _ ?_
              rw [← List.append_assoc, ← List.append_assoc]
              exact List.perm_append_comm.append_right _

/-- A drain loses nothing exactly under the condition; batches are not empty. -/
theorem applyBatches_lost_eq_nil_iff
    (p : ReceivePipeline π) (batches : List (SyncBatch π))
    (outcomes : List ApplyOutcome)
    (hitems : ∀ batch ∈ batches, batch.items ≠ []) :
    (applyBatches p batches outcomes).lost = [] ↔
      LosesNothing batches outcomes := by
  induction batches generalizing outcomes with
  | nil =>
      simp [applyBatches, LosesNothing]
  | cons batch batches ih =>
      have hrest : ∀ b ∈ batches, b.items ≠ [] :=
        fun b hb => hitems b (List.mem_cons_of_mem _ hb)
      have hnone : entriesOf batches = [] ↔ batches = [] := by
        cases batches with
        | nil =>
            simp [entriesOf]
        | cons next batches =>
            have hnext := hrest next List.mem_cons_self
            simp [entriesOf, SyncBatch.entries, hnext]
      cases outcomes with
      | nil =>
          have hall := (ih [] hrest).mpr (by cases batches <;> trivial)
          simpa [applyBatches, LosesNothing] using hall
      | cons outcome outcomes =>
          cases outcome with
          | ok =>
              simpa [applyBatches, LosesNothing] using ih outcomes hrest
          | err =>
              simpa [applyBatches, LosesNothing] using hnone
          | cancelled applied =>
              simp [applyBatches, LosesNothing, hnone, SyncBatch.entries]

end Apply

section Ledger

variable {π : Type u}

/-- The pipeline with the record of what went through it. -/
structure Ledger (π : Type u) where
  pipeline : ReceivePipeline π
  accepted : List (Entry π)
  applied : List (Entry π)
  lost : List (Entry π)

/--
`enqueue_and_apply_sync_items` is an enqueue and a drain, `sync_entities` an
enqueue for each page and a drain; a call that is dropped in between, or whose
page fails, is the same without the drain.
-/
inductive PipelineEvent (π : Type u) where
  | enqueue (entityType : String) (scope : Option String)
      (items : List (SyncEntityItem π))
  | drain (outcomes : List ApplyOutcome)

/-- The items that an enqueue accepts, as entries. -/
def acceptedEntries
    (p : ReceivePipeline π) (entityType : String) (scope : Option String)
    (items : List (SyncEntityItem π)) : List (Entry π) :=
  (p.acceptItems entityType scope items).1.map (fun item =>
    { entityType := entityType, scope := scope, item := item })

/-- Take one event. -/
def Ledger.step (l : Ledger π) : PipelineEvent π → Ledger π
  | .enqueue entityType scope items =>
      { l with
        pipeline := (l.pipeline.enqueue entityType scope items).2
        accepted := l.accepted ++
          acceptedEntries l.pipeline entityType scope items }
  | .drain outcomes =>
      let result := drainAndApply l.pipeline outcomes
      { l with
        pipeline := result.pipeline
        applied := l.applied ++ result.applied
        lost := l.lost ++ result.lost }

def Ledger.start (recentKeyLimit : Nat) : Ledger π where
  pipeline := .new recentKeyLimit
  accepted := []
  applied := []
  lost := []

/-- The drain takes no risk with the batches that wait. -/
def Ledger.KeepsItems (l : Ledger π) : PipelineEvent π → Prop
  | .enqueue _ _ _ => True
  | .drain outcomes => LosesNothing l.pipeline.queue outcomes

/-- Everything accepted is accounted for, and no batch in the queue is empty. -/
structure Ledger.Balanced (l : Ledger π) : Prop where
  entries : (l.applied ++ l.pipeline.waiting ++ l.lost).Perm l.accepted
  items : ∀ batch ∈ l.pipeline.queue, batch.items ≠ []

theorem acceptItems_queue
    (entityType : String) (scope : Option String)
    (p : ReceivePipeline π) (items : List (SyncEntityItem π)) :
    (p.acceptItems entityType scope items).2.2.queue = p.queue := by
  induction items generalizing p with
  | nil =>
      rfl
  | cons item items ih =>
      unfold ReceivePipeline.acceptItems
      dsimp only
      split
      · exact ih p
      · exact ih (p.rememberKey _)

/-- An enqueue appends the accepted items as one batch, or nothing. -/
theorem enqueue_queue
    (p : ReceivePipeline π) (entityType : String) (scope : Option String)
    (items : List (SyncEntityItem π)) :
    (p.enqueue entityType scope items).2.queue = p.queue ++
      if (p.acceptItems entityType scope items).1.isEmpty then []
      else [{ entityType := entityType, scope := scope,
              items := (p.acceptItems entityType scope items).1 }] := by
  have hqueue := acceptItems_queue entityType scope p items
  unfold ReceivePipeline.enqueue
  dsimp only
  split
  · simp [hqueue]
  · simp [hqueue]

/-- What an enqueue appends to the queue are the accepted items. -/
theorem entriesOf_enqueued
    (p : ReceivePipeline π) (entityType : String) (scope : Option String)
    (items : List (SyncEntityItem π)) :
    entriesOf (if (p.acceptItems entityType scope items).1.isEmpty then []
      else [{ entityType := entityType, scope := scope,
              items := (p.acceptItems entityType scope items).1 }]) =
      acceptedEntries p entityType scope items := by
  unfold entriesOf acceptedEntries
  split
  · rename_i hempty
    rw [List.isEmpty_iff] at hempty
    simp [hempty]
  · simp [SyncBatch.entries]

theorem enqueue_waiting
    (p : ReceivePipeline π) (entityType : String) (scope : Option String)
    (items : List (SyncEntityItem π)) :
    (p.enqueue entityType scope items).2.waiting =
      p.waiting ++ acceptedEntries p entityType scope items := by
  unfold ReceivePipeline.waiting
  rw [enqueue_queue, ← entriesOf_enqueued]
  exact List.flatMap_append

theorem applyBatches_queue
    (p : ReceivePipeline π) (batches : List (SyncBatch π))
    (outcomes : List ApplyOutcome) :
    ∀ batch ∈ (applyBatches p batches outcomes).pipeline.queue,
      batch ∈ p.queue ∨ batch ∈ batches := by
  induction batches generalizing outcomes with
  | nil =>
      exact fun batch h => Or.inl h
  | cons next batches ih =>
      intro batch h
      cases outcomes with
      | nil =>
          exact (ih [] batch h).imp_right (List.mem_cons_of_mem _)
      | cons outcome outcomes =>
          cases outcome with
          | ok =>
              exact (ih outcomes batch h).imp_right (List.mem_cons_of_mem _)
          | err =>
              rcases List.mem_cons.mp h with rfl | h
              · exact Or.inr List.mem_cons_self
              · exact Or.inl h
          | cancelled applied =>
              exact Or.inl h

theorem Ledger.Balanced.step
    {l : Ledger π} (h : l.Balanced) (event : PipelineEvent π) :
    (l.step event).Balanced := by
  cases event with
  | enqueue entityType scope items =>
      refine { entries := ?_, items := ?_ }
      · simp only [Ledger.step]
        rw [enqueue_waiting]
        have hswap : (l.applied ++ (l.pipeline.waiting ++
              acceptedEntries l.pipeline entityType scope items) ++ l.lost).Perm
            (l.applied ++ l.pipeline.waiting ++ l.lost ++
              acceptedEntries l.pipeline entityType scope items) := by
          simp only [List.append_assoc]
          refine List.Perm.append_left _ (List.Perm.append_left _ ?_)
          exact List.perm_append_comm
        exact hswap.trans (h.entries.append_right _)
      · intro batch hbatch
        simp only [Ledger.step, enqueue_queue, List.mem_append] at hbatch
        rcases hbatch with hbatch | hbatch
        · exact h.items batch hbatch
        · split at hbatch
          · cases hbatch
          · rename_i hne
            rw [List.mem_singleton] at hbatch
            subst hbatch
            simpa using hne
  | drain outcomes =>
      have hbal := applyBatches_balanced { l.pipeline with queue := [] }
        l.pipeline.queue outcomes
      refine { entries := ?_, items := ?_ }
      · simp only [Ledger.step, drainAndApply, drainBatches_eq]
        generalize applyBatches { l.pipeline with queue := [] }
          l.pipeline.queue outcomes = r at hbal
        have hwaiting : (r.applied ++ r.pipeline.waiting ++ r.lost).Perm
            l.pipeline.waiting := hbal
        refine List.Perm.trans ?_ h.entries
        calc l.applied ++ r.applied ++ r.pipeline.waiting ++ (l.lost ++ r.lost)
            = l.applied ++ ((r.applied ++ r.pipeline.waiting) ++
                (l.lost ++ r.lost)) := by simp
          List.Perm _ (l.applied ++ ((r.applied ++ r.pipeline.waiting ++ r.lost)
                ++ l.lost)) := by
              refine List.Perm.append_left _ ?_
              rw [List.append_assoc _ r.lost l.lost]
              exact List.Perm.append_left _ List.perm_append_comm
          List.Perm _ (l.applied ++ (l.pipeline.waiting ++ l.lost)) :=
              List.Perm.append_left _ (hwaiting.append_right _)
          _ = l.applied ++ l.pipeline.waiting ++ l.lost := by simp
      · intro batch hbatch
        simp only [Ledger.step, drainAndApply, drainBatches_eq] at hbatch
        rcases applyBatches_queue _ _ _ batch hbatch with hbatch | hbatch
        · cases hbatch
        · exact h.items batch hbatch

theorem Ledger.balanced_start (recentKeyLimit : Nat) :
    (Ledger.start recentKeyLimit : Ledger π).Balanced where
  entries := by simp [Ledger.start, ReceivePipeline.new,
    ReceivePipeline.waiting, entriesOf]
  items := by simp [Ledger.start, ReceivePipeline.new]

/-- In every run the accepted items are the applied, the waiting and the lost. -/
theorem ledger_balanced (recentKeyLimit : Nat) (events : List (PipelineEvent π)) :
    (EventRun.run Ledger.step (Ledger.start recentKeyLimit) events).Balanced :=
  EventRun.run_invariant Ledger.Balanced (fun _ event h => h.step event)
    (Ledger.balanced_start recentKeyLimit) events

/-- What one step adds to the lost items. -/
theorem Ledger.lost_step
    {l : Ledger π} (h : l.Balanced) (event : PipelineEvent π) :
    ∃ more, (l.step event).lost = l.lost ++ more ∧
      (more = [] ↔ l.KeepsItems event) := by
  cases event with
  | enqueue entityType scope items =>
      exact ⟨[], by simp [Ledger.step], by simp [Ledger.KeepsItems]⟩
  | drain outcomes =>
      refine ⟨_, rfl, ?_⟩
      rw [drainAndApply, drainBatches_eq]
      exact applyBatches_lost_eq_nil_iff _ _ outcomes h.items

/-- A run loses nothing exactly when none of its drains does. -/
theorem lost_eq_nil_iff
    (recentKeyLimit : Nat) (events : List (PipelineEvent π)) :
    (EventRun.run Ledger.step (Ledger.start recentKeyLimit) events).lost = [] ↔
      EventRun.Guarded Ledger.step Ledger.KeepsItems
        (Ledger.start recentKeyLimit) events := by
  have hiff : ¬ (EventRun.run Ledger.step (Ledger.start recentKeyLimit)
        events).lost ≠ [] ↔
      EventRun.Guarded Ledger.step Ledger.KeepsItems
        (Ledger.start recentKeyLimit) events := by
    refine EventRun.guarded_iff_of_persistent
      (fun l : Ledger π => l.Balanced ∧ l.lost = [])
      (fun l : Ledger π => l.lost ≠ [])
      ?_ ?_ ?_ ?_ ⟨Ledger.balanced_start recentKeyLimit, rfl⟩ events
    · rintro l event ⟨hbal, hlost⟩ hok
      obtain ⟨more, hmore, hiff⟩ := Ledger.lost_step hbal event
      refine ⟨hbal.step event, ?_⟩
      rw [hmore, hlost, hiff.mpr hok]
      rfl
    · rintro l ⟨-, hlost⟩ hbad
      exact hbad hlost
    · rintro l event ⟨hbal, -⟩ hok hlost
      obtain ⟨more, hmore, hiff⟩ := Ledger.lost_step hbal event
      rw [hmore, List.append_eq_nil_iff] at hlost
      exact hok (hiff.mp hlost.2)
    · intro l event hbad hlost
      cases event with
      | enqueue entityType scope items =>
          exact hbad hlost
      | drain outcomes =>
          exact hbad (List.append_eq_nil_iff.mp hlost).1
  simpa using hiff

/-- Without losses the accepted items are applied or waiting, and conversely. -/
theorem Ledger.Balanced.accounted_iff
    {l : Ledger π} (h : l.Balanced) :
    (l.applied ++ l.pipeline.waiting).Perm l.accepted ↔ l.lost = [] := by
  constructor
  · intro hperm
    have hlen := h.entries.length_eq
    have hlen' := hperm.length_eq
    rw [List.length_append] at hlen
    exact List.eq_nil_of_length_eq_zero (by omega)
  · intro hlost
    simpa [hlost] using h.entries

/--
The accepted items are the applied and the waiting ones, each as often as it was
accepted, in exactly the runs whose drains lose nothing; in these every accepted
item is applied or waits.
-/
theorem accepted_accounted_iff
    (recentKeyLimit : Nat) (events : List (PipelineEvent π)) :
    let start : Ledger π := Ledger.start recentKeyLimit
    let l := EventRun.run Ledger.step start events
    ((l.applied ++ l.pipeline.waiting).Perm l.accepted ↔
        EventRun.Guarded Ledger.step Ledger.KeepsItems start events) ∧
      (EventRun.Guarded Ledger.step Ledger.KeepsItems start events →
        ∀ e ∈ l.accepted, e ∈ l.applied ∨ e ∈ l.pipeline.waiting) := by
  intro start l
  have hbal : l.Balanced := ledger_balanced recentKeyLimit events
  have hiff : (l.applied ++ l.pipeline.waiting).Perm l.accepted ↔
      EventRun.Guarded Ledger.step Ledger.KeepsItems start events :=
    hbal.accounted_iff.trans (lost_eq_nil_iff recentKeyLimit events)
  refine ⟨hiff, fun hok e he => ?_⟩
  exact List.mem_append.mp ((hiff.mpr hok).mem_iff.mpr he)

/-- A sync item without payload. -/
def plainItem (entityId : String) (version : Nat) : SyncEntityItem Unit where
  entityId := entityId
  version := version
  deleted := false
  payload := none

/--
Two pages are accepted and the first fails to apply.  The second is gone: it is
not applied, it does not wait, and its redelivery is dropped as a duplicate.
-/
theorem second_page_lost :
    ¬ ∀ events : List (PipelineEvent Unit),
      let l := EventRun.run Ledger.step (Ledger.start 8192) events
      ∀ e ∈ l.accepted, e ∈ l.applied ∨ e ∈ l.pipeline.waiting := by
  intro h
  have hlost := h
    [ .enqueue "message" none [plainItem "1" 10],
      .enqueue "message" none [plainItem "2" 11],
      .drain [.err],
      .enqueue "message" none [plainItem "2" 11],
      .drain [] ]
    { entityType := "message", scope := none, item := plainItem "2" 11 }
    (by decide +kernel)
  revert hlost
  decide +kernel

end Ledger

end Receive
end PrivchatSdk
