import PrivchatSdk.Store.Attached
import PrivchatSdk.Store.Outbox

/-!
# Merging a duplicate message row

A message can exist twice: as the row created on this device and as a row that a
push or a sync brought.  The migration to the SQLite outbox merges such a pair
and moves what is attached to the dropped row.  `outbox_ack_sent`,
`mark_message_sent` and the upserts delete the duplicate row alone.

The comparison is exact: a merge at run time leaves the attached rows that the
migration would leave if and only if nothing was attached to the dropped row
(`merge_matches_migration_iff`).
-/

namespace PrivchatSdk

open StatementExec RelTable

section Attached

/-- The message ids that attached rows refer to. -/
def Store.attachedIds (s : Store) : List Nat :=
  s.messageExtra.rows.map (fun r => r.messageId) ++
    (s.messageReaction.rows.map (fun r => r.messageId) ++
      (s.mention.rows.map (fun r => r.messageId) ++
        s.reminder.rows.map (fun r => r.messageId)))

/-- Nothing is attached to the message. -/
def Store.NothingAttached (s : Store) (messageId : Nat) : Prop :=
  messageId ∉ s.attachedIds

instance (s : Store) (messageId : Nat) :
    Decidable (s.NothingAttached messageId) :=
  inferInstanceAs (Decidable (¬ _))

theorem Store.nothingAttached_iff (s : Store) (messageId : Nat) :
    s.NothingAttached messageId ↔
      (∀ r ∈ s.messageExtra.rows, r.messageId ≠ messageId) ∧
      (∀ r ∈ s.messageReaction.rows, r.messageId ≠ messageId) ∧
      (∀ r ∈ s.mention.rows, r.messageId ≠ messageId) ∧
      (∀ r ∈ s.reminder.rows, r.messageId ≠ messageId) := by
  simp [Store.NothingAttached, Store.attachedIds]

end Attached

section Merge

/-- The operations that drop a duplicate row; a batch upsert is a run of upserts. -/
inductive MergeOp where
  | outboxAckSent (messageId serverMessageId : Nat) (messageSeq : Int)
  | markMessageSent (messageId serverMessageId : Nat) (messageSeq : Int)
  | upsertRemoteMessage
      (currentUid : Option Nat) (input : UpsertRemoteMessageInput)

namespace MergeOp

/-- Run the operation. -/
def exec : MergeOp → StoreM PUnit
  | .outboxAckSent messageId serverMessageId messageSeq =>
      PrivchatSdk.outboxAckSent messageId serverMessageId messageSeq
  | .markMessageSent messageId serverMessageId messageSeq =>
      PrivchatSdk.markMessageSent messageId serverMessageId messageSeq
  | .upsertRemoteMessage currentUid input => do
      let _ ← upsertRemoteMessageWithResult currentUid input
      pure .unit

/-- The message that exists twice. -/
def serverMessageId : MergeOp → Nat
  | .outboxAckSent _ serverMessageId _ => serverMessageId
  | .markMessageSent _ serverMessageId _ => serverMessageId
  | .upsertRemoteMessage _ input => input.serverMessageId

/-- The row that the operation keeps. -/
def keeps (s : Store) : MergeOp → Option Nat
  | .outboxAckSent messageId _ _ => some messageId
  | .markMessageSent messageId _ _ => some messageId
  | .upsertRemoteMessage currentUid input =>
      (s.byInputLocalId currentUid input).map (fun r => r.id)

/-- What the operation itself writes to `message_extra`. -/
def writesExtra (env : Env) (keep : Nat) :
    MergeOp → Table MessageExtraRow → Table MessageExtraRow
  | .upsertRemoteMessage _ input, t =>
      if input.revoked then
        upsertedExtra t keep input.channelId input.channelType
          (revokeInsert env.now) (revokeUpdate env.now)
      else t
  | _, t => t

end MergeOp

/-- The operation succeeded and merged the row `drop` into the row `keep`. -/
structure Merges
    (op : MergeOp) (env : Env) (s s' : Store) (keep drop : Nat) : Prop where
  run : op.exec env s = (.ok .unit, s')
  duplicate : ∃ row, s.message.byRowid drop = some row ∧
    row.serverMessageId = some op.serverMessageId
  keeps : op.keeps s = some keep
  ne : keep ≠ drop
  dropped : s'.message.byRowid drop = none

/--
The attached rows are those of the migration, followed by the operation's own
write, and none refers to the dropped row.
-/
structure MatchesMigration
    (op : MergeOp) (env : Env) (s s' : Store) (keep drop : Nat) : Prop where
  extra : (mergeExtra keep drop s.messageExtra).map (op.writesExtra env keep) =
    some s'.messageExtra
  reaction : mergeReaction keep drop s.messageReaction = some s'.messageReaction
  mention : mergeMention keep drop s.mention = some s'.mention
  reminder : mergeReminder keep drop s.reminder = s'.reminder
  noneLeft : s'.NothingAttached drop

end Merge

section Frame

/-- A merge leaves the attached tables alone, its own extra write aside. -/
theorem Merges.frame
    {op : MergeOp} {env : Env} {s s' : Store} {keep drop : Nat}
    (h : Merges op env s s' keep drop) :
    s'.messageExtra = op.writesExtra env keep s.messageExtra ∧
      s'.messageReaction = s.messageReaction ∧
      s'.mention = s.mention ∧
      s'.reminder = s.reminder := by
  obtain ⟨row, hdrop, hsid⟩ := h.duplicate
  have hgone := h.dropped
  cases op with
  | outboxAckSent messageId serverMessageId messageSeq =>
      cases outboxAckSent_outcome h.run with
      | acked => exact ⟨rfl, rfl, rfl, rfl⟩
  | markMessageSent messageId serverMessageId messageSeq =>
      cases markMessageSent_outcome h.run with
      | acked => exact ⟨rfl, rfl, rfl, rfl⟩
  | upsertRemoteMessage currentUid input =>
      have hrun := h.run
      simp only [MergeOp.exec] at hrun
      obtain ⟨res, s₁, hup, hpure⟩ := Exec.bind_ok.mp hrun
      cases hpure
      cases upsert_outcome hup with
      | stale => simp [hdrop] at hgone
      | inserted t hpos hnone hnoneLocal ht =>
          obtain ⟨-, hrows, -⟩ := Table.rows_of_insert ht
          rw [Store.takeRevoke_message,
            Table.byRowid_of_append (fun _ => rfl) hrows] at hgone
          split at hgone
          · cases hgone
          · simp [hdrop] at hgone
      | written base t target hpos htarget ht =>
          have hbase : (base.byRowid drop).isSome = false := by
            rw [← byRowid_isSome_of_update ht]
            simpa using hgone
          cases htarget with
          | byServerId _ hrow hfresh hlocal => simp [hdrop] at hbase
          | byLocalId _ hnone hrow hfresh => simp [hdrop] at hbase
          | merge dropped _ hd hfresh hkeep hne =>
              have hk : target.id = keep := by
                have hkeeps := h.keeps
                simpa [MergeOp.keeps, hkeep] using hkeeps
              subst hk
              simp only [Store.takeRevoke, MergeOp.writesExtra]
              split
              · exact ⟨rfl, rfl, rfl, rfl⟩
              · exact ⟨rfl, rfl, rfl, rfl⟩

/-- The own extra write of a merge concerns the kept row only. -/
theorem MergeOp.mem_writesExtra
    {op : MergeOp} {env : Env} {keep drop : Nat}
    (hne : keep ≠ drop) (t : Table MessageExtraRow)
    (h : ∀ r ∈ (op.writesExtra env keep t).rows, r.messageId ≠ drop) :
    ∀ r ∈ t.rows, r.messageId ≠ drop := by
  intro r hr hrd
  unfold MergeOp.writesExtra at h
  split at h
  · split at h
    · refine h r ?_ hrd
      refine (Table.mem_upsert r).mpr (Or.inl ⟨hr, ?_⟩)
      simp [hrd, hne]
    · exact h r hr hrd
  · exact h r hr hrd

theorem MergeOp.writesExtra_none_on
    {op : MergeOp} {env : Env} {keep drop : Nat}
    (hne : keep ≠ drop) {t : Table MessageExtraRow}
    (h : ∀ r ∈ t.rows, r.messageId ≠ drop) :
    ∀ r ∈ (op.writesExtra env keep t).rows, r.messageId ≠ drop := by
  have hkey (u : Table MessageExtraRow) :
      (∀ r ∈ u.rows, r.messageId ≠ drop) ↔ u.lookup drop = none := by
    rw [Table.lookup_eq_none_iff]
    simp [eq_comm]
  rw [hkey] at h ⊢
  unfold MergeOp.writesExtra
  split
  · split
    · rw [lookup_upsertedExtra_of_ne _ _ _ _ _ _ (Ne.symm hne)]
      exact h
    · exact h
  · exact h

end Frame

section Counterexample

/-- A message of this device, its copy from history, and a reaction on the copy. -/
def duplicatedStore : Store :=
  (do
    let _ ← createLocalMessageQueued (.text 10 1 "hi") 7 "message" [] none
    let _ ← upsertRemoteMessageWithResult (some 1) (.text 900 0 10 1 5 "hi")
    upsertMessageReaction
      { channelId := 10
        channelType := 1
        uid := 2
        name := ""
        emoji := "+1"
        messageId := 2
        seq := 6
        isDeleted := false
        createdAt := 0 } : StoreM PUnit).after (Env.calm 1000) Store.empty

/-- Acknowledging the local row drops the copy and leaves the reaction behind. -/
theorem duplicatedStore_ack_merges :
    Merges (.outboxAckSent 1 900 5) (Env.calm 2000) duplicatedStore
      (outboxAckSent 1 900 5 (Env.calm 2000) duplicatedStore).2 1 2 :=
  { run := by rfl
    duplicate := by
      refine ⟨_, rfl, ?_⟩
      decide
    keeps := by decide
    ne := by decide
    dropped := by decide }

/-- Not every merge at run time leaves what the migration leaves. -/
theorem merge_loses_attached_rows :
    ¬ ∀ (op : MergeOp) (env : Env) (s s' : Store) (keep drop : Nat),
      Merges op env s s' keep drop → MatchesMigration op env s s' keep drop := by
  intro hall
  have hleft := (hall _ _ _ _ _ _ duplicatedStore_ack_merges).noneLeft
  revert hleft
  decide

end Counterexample

/--
A merge at run time leaves what the migration leaves if and only if nothing was
attached to the dropped row.
-/
theorem merge_matches_migration_iff
    (op : MergeOp) (env : Env) (s s' : Store) (keep drop : Nat)
    (h : Merges op env s s' keep drop) :
    MatchesMigration op env s s' keep drop ↔ s.NothingAttached drop := by
  obtain ⟨hextra, hreaction, hmention, hreminder⟩ := h.frame
  rw [s.nothingAttached_iff]
  constructor
  · intro hm
    have hleft := (s'.nothingAttached_iff drop).mp hm.noneLeft
    rw [hextra, hreaction, hmention, hreminder] at hleft
    exact ⟨MergeOp.mem_writesExtra h.ne _ hleft.1, hleft.2⟩
  · rintro ⟨hx, hr, hn, hd⟩
    refine
      { extra := ?_
        reaction := ?_
        mention := ?_
        reminder := ?_
        noneLeft := ?_ }
    · rw [mergeExtra_eq_self hx, hextra]
      rfl
    · rw [mergeReaction_eq_self hr, hreaction]
    · rw [mergeMention_eq_self hn, hmention]
    · rw [mergeReminder_eq_self hd, hreminder]
    · rw [s'.nothingAttached_iff, hextra, hreaction, hmention, hreminder]
      exact ⟨MergeOp.writesExtra_none_on h.ne hx, hr, hn, hd⟩

/-- The equivalence at the acknowledged duplicate of `duplicatedStore`. -/
theorem duplicatedStore_ack_matches_iff :
    MatchesMigration (.outboxAckSent 1 900 5) (Env.calm 2000) duplicatedStore
        (outboxAckSent 1 900 5 (Env.calm 2000) duplicatedStore).2 1 2 ↔
      duplicatedStore.NothingAttached 2 :=
  merge_matches_migration_iff _ _ _ _ _ _ duplicatedStore_ack_merges

end PrivchatSdk
