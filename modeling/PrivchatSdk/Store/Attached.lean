import PrivchatSdk.Store.Change

/-!
# What is attached to a message, and the merge rule of the migration

Reactions, mentions and reminders refer to a message by its row id.  Migration
`V20260727130000` merges a duplicate row into the row that is kept: it first
removes, table by table, what both rows have, by the rule of that table, and
then re-points the rest.  `mergeExtra`, `mergeReaction`, `mergeMention` and
`mergeReminder` are these statements for one pair of rows.

The re-pointing `UPDATE` could hit a unique index; that it never does is
`exists_mergeExtra`, `exists_mergeReaction` and `exists_mergeMention`.
-/

namespace PrivchatSdk

open StatementExec RelTable

section Operations

structure UpsertMessageReactionInput where
  channelId : Nat
  channelType : Int
  uid : Nat
  name : String
  emoji : String
  messageId : Nat
  seq : Int
  isDeleted : Bool
  createdAt : Int
  deriving DecidableEq, Repr

/-- The row that a reaction upsert inserts. -/
def UpsertMessageReactionInput.toRow
    (input : UpsertMessageReactionInput) (id : Nat) : MessageReactionRow where
  id := id
  channelId := input.channelId
  channelType := input.channelType
  uid := input.uid
  name := input.name
  emoji := input.emoji
  messageId := input.messageId
  seq := input.seq
  isDeleted := input.isDeleted
  createdAt := input.createdAt

/-- The columns that a reaction upsert replaces, whatever the stored `seq` is. -/
def UpsertMessageReactionInput.overwrite
    (input : UpsertMessageReactionInput) (r : MessageReactionRow) :
    MessageReactionRow :=
  { r with
    channelId := input.channelId
    channelType := input.channelType
    name := input.name
    seq := input.seq
    isDeleted := input.isDeleted
    createdAt := input.createdAt }

/-- The reactions after `upsert_message_reaction`. -/
def upsertedReaction
    (t : Table MessageReactionRow) (input : UpsertMessageReactionInput) :
    Table MessageReactionRow :=
  t.upsert (input.messageId, input.uid, input.emoji) input.toRow
    input.overwrite (fun _ => rfl) (fun _ => rfl) (fun _ => rfl) (fun _ => rfl)

/-- `upsert_message_reaction`. -/
def upsertMessageReaction (input : UpsertMessageReactionInput) : StoreM PUnit :=
  exec "upsert message_reaction" (fun s =>
    { s with messageReaction := upsertedReaction s.messageReaction input })

structure MentionInput where
  messageId : Nat
  channelId : Nat
  channelType : Int
  mentionedUserId : Nat
  senderId : Nat
  isMentionAll : Bool
  createdAt : Int
  deriving DecidableEq, Repr

/-- `record_mention`: `INSERT OR IGNORE`. -/
def recordMention (input : MentionInput) : StoreM PUnit :=
  exec "record mention" (fun s =>
    { s with
      mention := s.mention.upsert (input.messageId, input.mentionedUserId)
        (fun n =>
          { id := n
            messageId := input.messageId
            channelId := input.channelId
            channelType := input.channelType
            mentionedUserId := input.mentionedUserId
            senderId := input.senderId
            isMentionAll := input.isMentionAll
            createdAt := input.createdAt
            isRead := false })
        id (fun _ => rfl) (fun _ => rfl) (fun _ => rfl) (fun _ => rfl) })

/-- `mark_mention_read`. -/
def markMentionRead (messageId userId : Nat) : StoreM PUnit :=
  exec "mark mention read" (fun s =>
    { s with
      mention := s.mention.modify
        (fun r => r.messageId == messageId && r.mentionedUserId == userId)
        (fun r => { r with isRead := true })
        (fun _ => rfl) (fun _ => rfl) })

/-- `upsert_reminder`: the input columns, keyed by the reminder id. -/
def upsertReminder (input : ReminderRow) : StoreM PUnit :=
  exec "upsert reminder" (fun s =>
    { s with
      reminder := s.reminder.upsert input.reminderId
        (fun n => { input with id := n })
        (fun r => { input with id := r.id, reminderId := r.reminderId })
        (fun _ => rfl) (fun _ => rfl) (fun _ => rfl) (fun _ => rfl) })

end Operations

section MergeRule

theorem MessageExtraRow.rowid_moved (n : Nat) (r : MessageExtraRow) :
    Record.rowid { r with messageId := n } = Record.rowid r := by
  rfl

theorem MessageReactionRow.rowid_moved (n : Nat) (r : MessageReactionRow) :
    Record.rowid { r with messageId := n } = Record.rowid r := by
  rfl

theorem MentionRow.rowid_moved (n : Nat) (r : MentionRow) :
    Record.rowid { r with messageId := n } = Record.rowid r := by
  rfl

variable (keep drop : Nat)

/-- The newer `message_extra` row of the pair survives, the kept one on a tie. -/
def mergeExtra (t : Table MessageExtraRow) : Option (Table MessageExtraRow) :=
  let t₁ := t.deleteWhere (fun r =>
    r.messageId == drop &&
      t.rows.any (fun k =>
        k.messageId == keep && decide (r.extraVersion ≤ k.extraVersion)))
  let t₂ := t₁.deleteWhere (fun r =>
    r.messageId == keep &&
      t₁.rows.any (fun d =>
        d.messageId == drop && decide (r.extraVersion < d.extraVersion)))
  t₂.update (fun r => r.messageId == drop)
    (fun r => { r with messageId := keep }) (MessageExtraRow.rowid_moved keep)

/-- `drop`'s reaction of the same user and emoji. -/
def MessageReactionRow.sameOn (messageId : Nat) (r d : MessageReactionRow) :
    Bool :=
  d.messageId == messageId && d.uid == r.uid && d.emoji == r.emoji

/-- A reaction both rows have takes the state with the higher `seq`. -/
def mergeReaction (t : Table MessageReactionRow) :
    Option (Table MessageReactionRow) :=
  let t₁ := t.modify
    (fun r => r.messageId == keep &&
      t.rows.any (fun d => r.sameOn drop d && decide (r.seq < d.seq)))
    (fun r =>
      match t.rows.find? (r.sameOn drop) with
      | some d => { r with seq := d.seq, isDeleted := d.isDeleted }
      | none => r)
    (fun r => by split <;> rfl)
    (fun r => by split <;> rfl)
  let t₂ := t₁.deleteWhere (fun r =>
    r.messageId == drop && t₁.rows.any (r.sameOn keep))
  t₂.update (fun r => r.messageId == drop)
    (fun r => { r with messageId := keep }) (MessageReactionRow.rowid_moved keep)

/-- The other row's mention of the same user. -/
def MentionRow.sameOn (messageId : Nat) (r d : MentionRow) : Bool :=
  d.messageId == messageId && d.mentionedUserId == r.mentionedUserId

/-- A mention both rows have is read if it was read on either. -/
def mergeMention (t : Table MentionRow) : Option (Table MentionRow) :=
  let t₁ := t.modify
    (fun r => r.messageId == keep &&
      t.rows.any (fun d => r.sameOn drop d && d.isRead))
    (fun r => { r with isRead := true })
    (fun _ => rfl) (fun _ => rfl)
  let t₂ := t₁.deleteWhere (fun r =>
    r.messageId == drop && t₁.rows.any (r.sameOn keep))
  t₂.update (fun r => r.messageId == drop)
    (fun r => { r with messageId := keep }) (MentionRow.rowid_moved keep)

/-- Reminders have no index over the message id and are re-pointed. -/
def mergeReminder (t : Table ReminderRow) : Table ReminderRow :=
  t.modify (fun r => r.messageId == drop)
    (fun r => { r with messageId := keep }) (fun _ => rfl) (fun _ => rfl)

end MergeRule

section MergeTotal

/-- The merged extras fit the unique index. -/
theorem exists_mergeExtra
    (keep drop : Nat) (t : Table MessageExtraRow) :
    ∃ t', mergeExtra keep drop t = some t' := by
  cases h : mergeExtra keep drop t with
  | some t' =>
      exact ⟨t', rfl⟩
  | none =>
      exfalso
      unfold mergeExtra at h
      rw [Table.update_eq_none_iff] at h
      apply h
      refine Table.keysUnique_updatedRows _ _ _ ?_ ?_
      · intro a ha hpa b hb _ k hka hkb
        simp only [keys_extra, List.mem_singleton] at hka hkb
        subst hka
        have had : a.messageId = drop := by simpa using hpa
        obtain ⟨ha₁, -⟩ := (Table.mem_deleteWhere _ _ a).mp ha
        obtain ⟨hb₁, hbkept⟩ := (Table.mem_deleteWhere _ _ b).mp hb
        obtain ⟨ha₀, hakept⟩ := (Table.mem_deleteWhere _ _ a).mp ha₁
        obtain ⟨hb₀, -⟩ := (Table.mem_deleteWhere _ _ b).mp hb₁
        -- neither of the two deletions removed its row of the pair
        have hlt : b.extraVersion < a.extraVersion := by
          simp only [had, beq_self_eq_true, Bool.true_and, List.any_eq_false,
            Bool.and_eq_true, beq_iff_eq, decide_eq_true_eq, not_and,
            Int.not_le] at hakept
          exact hakept b hb₀ hkb.symm
        simp only [← hkb, beq_self_eq_true, Bool.true_and, List.any_eq_false,
          Bool.and_eq_true, beq_iff_eq, decide_eq_true_eq, not_and,
          Int.not_lt] at hbkept
        have hge := hbkept a ha₁ had
        omega
      · intro a ha hpa b hb hpb hlt
        have had : a.messageId = drop := by simpa using hpa
        have hbd : b.messageId = drop := by simpa using hpb
        have hab := Table.key_inj _ ha hb
          (k := drop) (by simp [had]) (by simp [hbd])
        rw [hab] at hlt
        omega

/-- The merged reactions fit the unique index. -/
theorem exists_mergeReaction
    (keep drop : Nat) (t : Table MessageReactionRow) :
    ∃ t', mergeReaction keep drop t = some t' := by
  cases h : mergeReaction keep drop t with
  | some t' =>
      exact ⟨t', rfl⟩
  | none =>
      exfalso
      unfold mergeReaction at h
      rw [Table.update_eq_none_iff] at h
      apply h
      refine Table.keysUnique_updatedRows _ _ _ ?_ ?_
      · intro a ha hpa b hb _ k hka hkb
        simp only [keys_reaction, List.mem_singleton] at hka hkb
        subst hka
        obtain ⟨hkm, hku, hke⟩ : keep = b.messageId ∧ a.uid = b.uid ∧
            a.emoji = b.emoji := by simpa using hkb
        have had : a.messageId = drop := by simpa using hpa
        obtain ⟨ha₁, hakept⟩ := (Table.mem_deleteWhere _ _ a).mp ha
        obtain ⟨hb₁, -⟩ := (Table.mem_deleteWhere _ _ b).mp hb
        simp only [had, beq_self_eq_true, Bool.true_and,
          List.any_eq_false] at hakept
        apply hakept b hb₁
        simp [MessageReactionRow.sameOn, hkm, hku, hke]
      · intro a ha hpa b hb hpb hlt k hka hkb
        simp only [keys_reaction, List.mem_singleton] at hka hkb
        subst hka
        obtain ⟨hku, hke⟩ : a.uid = b.uid ∧ a.emoji = b.emoji := by
          simpa using hkb
        have had : a.messageId = drop := by simpa using hpa
        have hbd : b.messageId = drop := by simpa using hpb
        have hab := Table.key_inj _ ha hb (k := (drop, b.uid, b.emoji))
          (by simp [had, hku, hke]) (by simp [hbd])
        rw [hab] at hlt
        omega

/-- The merged mentions fit the unique index. -/
theorem exists_mergeMention
    (keep drop : Nat) (t : Table MentionRow) :
    ∃ t', mergeMention keep drop t = some t' := by
  cases h : mergeMention keep drop t with
  | some t' =>
      exact ⟨t', rfl⟩
  | none =>
      exfalso
      unfold mergeMention at h
      rw [Table.update_eq_none_iff] at h
      apply h
      refine Table.keysUnique_updatedRows _ _ _ ?_ ?_
      · intro a ha hpa b hb _ k hka hkb
        simp only [keys_mention, List.mem_singleton] at hka hkb
        subst hka
        obtain ⟨hkm, hku⟩ : keep = b.messageId ∧
            a.mentionedUserId = b.mentionedUserId := by simpa using hkb
        have had : a.messageId = drop := by simpa using hpa
        obtain ⟨ha₁, hakept⟩ := (Table.mem_deleteWhere _ _ a).mp ha
        obtain ⟨hb₁, -⟩ := (Table.mem_deleteWhere _ _ b).mp hb
        simp only [had, beq_self_eq_true, Bool.true_and,
          List.any_eq_false] at hakept
        apply hakept b hb₁
        simp [MentionRow.sameOn, hkm, hku]
      · intro a ha hpa b hb hpb hlt k hka hkb
        simp only [keys_mention, List.mem_singleton] at hka hkb
        subst hka
        have hku : a.mentionedUserId = b.mentionedUserId := by simpa using hkb
        have had : a.messageId = drop := by simpa using hpa
        have hbd : b.messageId = drop := by simpa using hpb
        have hab := Table.key_inj _ ha hb (k := (drop, b.mentionedUserId))
          (by simp [had, hku]) (by simp [hbd])
        rw [hab] at hlt
        omega

end MergeTotal

section MergeNothing

variable {keep drop : Nat}

/-- Without a row on the dropped message the merge changes nothing. -/
theorem mergeExtra_eq_self
    {t : Table MessageExtraRow} (h : ∀ r ∈ t.rows, r.messageId ≠ drop) :
    mergeExtra keep drop t = some t := by
  unfold mergeExtra
  rw [t.deleteWhere_eq_self _ (by simp +contextual [h])]
  have hnone : ∀ r : MessageExtraRow,
      t.rows.any (fun d =>
        d.messageId == drop && decide (r.extraVersion < d.extraVersion)) =
        false := by
    intro r
    simp +contextual [h]
  simp only [hnone, Bool.and_false]
  rw [t.deleteWhere_eq_self _ (by simp)]
  exact t.update_eq_self _ _ _ (by simpa using h)

theorem mergeReaction_eq_self
    {t : Table MessageReactionRow} (h : ∀ r ∈ t.rows, r.messageId ≠ drop) :
    mergeReaction keep drop t = some t := by
  unfold mergeReaction
  rw [t.modify_eq_self _ _ _ _
    (by simp +contextual [h, MessageReactionRow.sameOn])]
  dsimp only
  rw [t.deleteWhere_eq_self _ (by simp +contextual [h])]
  exact t.update_eq_self _ _ _ (by simpa using h)

theorem mergeMention_eq_self
    {t : Table MentionRow} (h : ∀ r ∈ t.rows, r.messageId ≠ drop) :
    mergeMention keep drop t = some t := by
  unfold mergeMention
  rw [t.modify_eq_self _ _ _ _ (by simp +contextual [h, MentionRow.sameOn])]
  dsimp only
  rw [t.deleteWhere_eq_self _ (by simp +contextual [h])]
  exact t.update_eq_self _ _ _ (by simpa using h)

theorem mergeReminder_eq_self
    {t : Table ReminderRow} (h : ∀ r ∈ t.rows, r.messageId ≠ drop) :
    mergeReminder keep drop t = t :=
  t.modify_eq_self _ _ _ _ (by simpa using h)

end MergeNothing

end PrivchatSdk
