import PrivchatSdk.DuplicateMerge
import PrivchatSdk.Lib.Repoint

/-!
# The migration to the SQLite outbox

Migration `V20260727130000` applies the acknowledgements that are still pending
and merges the copies that a push or a sync brought of the acknowledged messages.
Its statements work on whole tables; `migrateOutbox` is their sequence, and `none`
is a statement that hits a unique index, after which the database does not open.

`migrateOutbox_regular` says what the migration leaves if the pending rows fit
together (`Regular`); `migrateOutbox_irregular` has the databases that do not.
-/

namespace PrivchatSdk

open RelTable

section Rows

/-- Table `outbound_ack_pending`, as far as the migration reads it. -/
structure OutboundAckRow where
  messageId : Nat
  serverMessageId : Nat
  messageSeq : Int
  deriving DecidableEq, Repr

/-- `message_id` is the primary key; no index is on the other columns. -/
instance : Record OutboundAckRow Nat where
  rowid := OutboundAckRow.messageId
  keys _ := []

/-- The database as the version before left it. -/
structure LegacyDatabase where
  store : Store
  outboundAckPending : Table OutboundAckRow

/-- `_ack_dup`: the kept and the dropped id of every duplicate. -/
def LegacyDatabase.ackDup (db : LegacyDatabase) : List (Nat × Nat) :=
  db.outboundAckPending.rows.flatMap (fun p =>
    (db.store.message.rows.filter (fun m =>
      m.serverMessageId == some p.serverMessageId && m.id != p.messageId)).map
        (fun m => (p.messageId, m.id)))

/-- An extra belongs to its message. -/
def extraRef : Reference MessageExtraRow Unit where
  target r := r.messageId
  part _ := ()
  key n _ := n
  move n r := { r with messageId := n }
  keys_eq _ := rfl
  key_inj h := ⟨h, rfl⟩
  target_move _ _ := rfl
  part_move _ _ := rfl
  rowid_move := MessageExtraRow.rowid_moved

/-- A reaction belongs to its message, by user and emoji. -/
def reactionRef : Reference MessageReactionRow (Nat × String) where
  target r := r.messageId
  part r := (r.uid, r.emoji)
  key n b := (n, b.1, b.2)
  move n r := { r with messageId := n }
  keys_eq _ := rfl
  key_inj h := by
    injection h with hn hb
    injection hb with hu he
    exact ⟨hn, Prod.ext hu he⟩
  target_move _ _ := rfl
  part_move _ _ := rfl
  rowid_move := MessageReactionRow.rowid_moved

/-- A mention belongs to its message, by user. -/
def mentionRef : Reference MentionRow Nat where
  target r := r.messageId
  part r := r.mentionedUserId
  key n b := (n, b)
  move n r := { r with messageId := n }
  keys_eq _ := rfl
  key_inj h := by
    injection h with hn hb
    exact ⟨hn, hb⟩
  target_move _ _ := rfl
  part_move _ _ := rfl
  rowid_move := MentionRow.rowid_moved

end Rows

section Statements

variable (dup : List (Nat × Nat))

/-- The extras: the newer row of a pair stays, the kept one on a tie. -/
def migrateExtra (t : Table MessageExtraRow) : Option (Table MessageExtraRow) :=
  extraRef.repoint dup
    (extraRef.deleteBeaten dup
      (fun keep drop => decide (keep.extraVersion < drop.extraVersion))
      (extraRef.deleteCovered dup
        (fun keep drop => decide (drop.extraVersion ≤ keep.extraVersion)) t))

/-- The reactions: one that both have takes the state with the higher `seq`. -/
def migrateReaction (t : Table MessageReactionRow) :
    Option (Table MessageReactionRow) :=
  reactionRef.repoint dup
    (reactionRef.deleteCovered dup (fun _ _ => true)
      (reactionRef.align dup (fun keep drop => decide (keep.seq < drop.seq))
        (fun keep drop =>
          { keep with seq := drop.seq, isDeleted := drop.isDeleted })
        (fun _ _ => rfl) (fun _ _ => rfl) t))

/-- The mentions: one that both have is read if it was read on either. -/
def migrateMention (t : Table MentionRow) : Option (Table MentionRow) :=
  mentionRef.repoint dup
    (mentionRef.deleteCovered dup (fun _ _ => true)
      (mentionRef.align dup (fun _ drop => drop.isRead)
        (fun keep _ => { keep with isRead := true })
        (fun _ _ => rfl) (fun _ _ => rfl) t))

/-- The reminders have no index over the message. -/
def migrateReminder (t : Table ReminderRow) : Table ReminderRow :=
  t.modify (fun r => isDropped dup r.messageId)
    (fun r => { r with messageId := keptOf dup r.messageId })
    (fun _ => rfl) (fun _ => rfl)

/-- The columns of an acknowledged message. -/
def MessageRow.acknowledgedBy (p : OutboundAckRow) (m : MessageRow) : MessageRow :=
  { m with
    serverMessageId := some p.serverMessageId
    pts := p.messageSeq
    orderSeq := p.messageSeq
    status := 2 }

/-- The pending acknowledgements are applied to the messages that are left. -/
def applyAcks
    (acks : Table OutboundAckRow) (t : Table MessageRow) :
    Option (Table MessageRow) :=
  t.updateEach (fun m => acks.rows.any (fun p => p.messageId == m.id))
    (fun m => ((acks.rows.find? (fun p => p.messageId == m.id)).map
      (fun p => m.acknowledgedBy p)).getD m)
    (fun m => by
      cases acks.rows.find? (fun p => p.messageId == m.id) with
      | none => rfl
      | some p => rfl)

/-- The migration; its last statement drops `outbound_ack_pending`. -/
def migrateOutbox (db : LegacyDatabase) : Option Store := do
  let messageExtra ← migrateExtra db.ackDup db.store.messageExtra
  let messageReaction ← migrateReaction db.ackDup db.store.messageReaction
  let mention ← migrateMention db.ackDup db.store.mention
  let reminder := migrateReminder db.ackDup db.store.reminder
  let message ← applyAcks db.outboundAckPending
    (db.store.message.deleteWhere (fun m => isDropped db.ackDup m.id))
  some { db.store with
    message := message
    messageExtra := messageExtra
    messageReaction := messageReaction
    mention := mention
    reminder := reminder }

end Statements

section Regular

variable {db : LegacyDatabase}

/--
The pending rows fit together: the server gave every message its own id, an
acknowledged message that has a copy is stored, and no copy is itself waiting for
an acknowledgement.
-/
structure LegacyDatabase.Regular (db : LegacyDatabase) : Prop where
  positive : ∀ p ∈ db.outboundAckPending.rows, 0 < p.serverMessageId
  distinct : ∀ p ∈ db.outboundAckPending.rows, ∀ q ∈ db.outboundAckPending.rows,
    p.serverMessageId = q.serverMessageId → p = q
  stored : ∀ {k d}, (k, d) ∈ db.ackDup → ∃ m ∈ db.store.message.rows, m.id = k
  unacked : ∀ {k d}, (k, d) ∈ db.ackDup → ∀ p ∈ db.outboundAckPending.rows,
    p.messageId ≠ d

theorem LegacyDatabase.mem_ackDup {k d : Nat} :
    (k, d) ∈ db.ackDup ↔ ∃ p ∈ db.outboundAckPending.rows, p.messageId = k ∧
      ∃ m ∈ db.store.message.rows, m.id = d ∧ d ≠ k ∧
        m.serverMessageId = some p.serverMessageId := by
  simp only [LegacyDatabase.ackDup, List.mem_flatMap, List.mem_map,
    List.mem_filter, Bool.and_eq_true, beq_iff_eq, bne_iff_ne, Prod.mk.injEq]
  constructor
  · rintro ⟨p, hp, m, ⟨hm, hsid, hne⟩, rfl, rfl⟩
    exact ⟨p, hp, rfl, m, hm, rfl, hne, hsid⟩
  · rintro ⟨p, hp, rfl, m, hm, rfl, hne, hsid⟩
    exact ⟨p, hp, m, ⟨hm, hsid, hne⟩, rfl, rfl⟩

/-- The rows of the acknowledgement table are known by their message. -/
theorem ack_eq
    {t : Table OutboundAckRow} {p q : OutboundAckRow} (hp : p ∈ t.rows)
    (hq : q ∈ t.rows) (h : p.messageId = q.messageId) : p = q :=
  t.rowid_inj hp hq h

/-- Two messages with one positive server id are one row. -/
theorem message_eq_of_serverId
    {t : Table MessageRow} {m m' : MessageRow} (hm : m ∈ t.rows) (hm' : m' ∈ t.rows)
    {sid : Nat} (hpos : 0 < sid) (hsid : m.serverMessageId = some sid)
    (hsid' : m'.serverMessageId = some sid) : m = m' :=
  t.key_inj hm hm' ((mem_keys_message m sid).mpr ⟨hsid, hpos⟩)
    ((mem_keys_message m' sid).mpr ⟨hsid', hpos⟩)

theorem LegacyDatabase.Regular.pairing (h : db.Regular) : Pairing db.ackDup where
  drop_eq := by
    intro k d d' hd hd'
    obtain ⟨p, hp, hpk, m, hm, rfl, -, hsid⟩ := LegacyDatabase.mem_ackDup.mp hd
    obtain ⟨q, hq, hqk, m', hm', rfl, -, hsid'⟩ := LegacyDatabase.mem_ackDup.mp hd'
    have hpq := ack_eq hp hq (hpk.trans hqk.symm)
    subst hpq
    rw [message_eq_of_serverId hm hm' (h.positive p hp) hsid hsid']
  keep_eq := by
    intro k k' d hk hk'
    obtain ⟨p, hp, hpk, m, hm, hmd, -, hsid⟩ := LegacyDatabase.mem_ackDup.mp hk
    obtain ⟨q, hq, hqk, m', hm', hmd', -, hsid'⟩ := LegacyDatabase.mem_ackDup.mp hk'
    have hmm : m = m' :=
      db.store.message.rowid_inj hm hm' (hmd.trans hmd'.symm)
    subst hmm
    rw [hsid, Option.some.injEq] at hsid'
    rw [← hpk, ← hqk, h.distinct p hp q hq hsid']
  apart := by
    intro k d k' d' hk hk'
    obtain ⟨p, hp, hpk, -⟩ := LegacyDatabase.mem_ackDup.mp hk
    rw [← hpk]
    exact h.unacked hk' p hp

/-- The acknowledgement of a message is found by its id. -/
theorem find_ack
    {t : Table OutboundAckRow} {p : OutboundAckRow} (hp : p ∈ t.rows) :
    t.rows.find? (fun q => q.messageId == p.messageId) = some p := by
  have hfound := (t.byRowid_eq_some_iff p.messageId p).mpr ⟨hp, rfl⟩
  exact hfound

theorem find_ack_none
    {t : Table OutboundAckRow} {n : Nat}
    (h : ¬ t.rows.any (fun p => p.messageId == n) = true) :
    t.rows.find? (fun p => p.messageId == n) = none := by
  rw [List.find?_eq_none]
  intro p hp hpn
  exact h (List.any_eq_true.mpr ⟨p, hp, hpn⟩)

/-- The acknowledgements of a regular database go through. -/
theorem LegacyDatabase.Regular.exists_applyAcks (h : db.Regular) :
    ∃ t, applyAcks db.outboundAckPending
        (db.store.message.deleteWhere (fun m => isDropped db.ackDup m.id)) = some t ∧
      ∀ m, m ∈ t.rows ↔
        ∃ m₀ ∈ db.store.message.rows, isDropped db.ackDup m₀.id = false ∧
          ((db.outboundAckPending.rows.find? (fun p => p.messageId == m₀.id)).map
            (fun p => m₀.acknowledgedBy p)).getD m₀ = m := by
  have hupdate : ∃ t, applyAcks db.outboundAckPending
        (db.store.message.deleteWhere (fun m => isDropped db.ackDup m.id)) = some t ∧
      t.rows = (db.store.message.deleteWhere
        (fun m => isDropped db.ackDup m.id)).updatedRows
          (fun m => db.outboundAckPending.rows.any (fun p => p.messageId == m.id))
          (fun m => ((db.outboundAckPending.rows.find?
            (fun p => p.messageId == m.id)).map
              (fun p => m.acknowledgedBy p)).getD m) ∧
      t.nextRowid = (db.store.message.deleteWhere
        (fun m => isDropped db.ackDup m.id)).nextRowid := by
    refine exists_updateEach ?_
    intro a ha hacked b hb hne sid hkey
    obtain ⟨p, hp, hpa⟩ := List.any_eq_true.mp hacked
    have hpa' : p.messageId = a.id := by simpa using hpa
    rw [← hpa', find_ack hp, Option.map_some, Option.getD_some, mem_keys_message]
      at hkey
    obtain ⟨hsid, hpos⟩ := hkey
    have hsid' : p.serverMessageId = sid := Option.some.inj hsid
    subst hsid'
    obtain ⟨hb₀, hkept⟩ := (Table.mem_deleteWhere _ _ b).mp hb
    constructor
    · -- a copy of the message would have been dropped
      intro hcopy
      have hdropped : isDropped db.ackDup b.id = true := by
        rw [isDropped_iff]
        refine ⟨p.messageId, LegacyDatabase.mem_ackDup.mpr
          ⟨p, hp, rfl, b, hb₀, rfl, ?_, ((mem_keys_message b _).mp hcopy).1⟩⟩
        rw [hpa']
        exact hne
      rw [hdropped] at hkept
      cases hkept
    · -- another acknowledged message gets another server id
      intro hbacked hsame
      obtain ⟨q, hq, hqb⟩ := List.any_eq_true.mp hbacked
      have hqb' : q.messageId = b.id := by simpa using hqb
      rw [← hqb', find_ack hq, Option.map_some, Option.getD_some, mem_keys_message]
        at hsame
      have hpq := h.distinct p hp q hq (Option.some.inj hsame.1).symm
      subst hpq
      exact hne (hqb'.symm.trans hpa')
  obtain ⟨t, ht, hrows, -⟩ := hupdate
  refine ⟨t, ht, fun m => ?_⟩
  rw [hrows, Table.mem_updatedRows]
  constructor
  · rintro ⟨m₀, hm₀, hm⟩
    obtain ⟨hstored, hkept⟩ := (Table.mem_deleteWhere _ _ m₀).mp hm₀
    refine ⟨m₀, hstored, hkept, ?_⟩
    split at hm
    · exact hm
    · rename_i hnot
      rw [find_ack_none hnot]
      exact hm
  · rintro ⟨m₀, hstored, hkept, hm⟩
    refine ⟨m₀, (Table.mem_deleteWhere _ _ m₀).mpr ⟨hstored, hkept⟩, ?_⟩
    split
    · exact hm
    · rename_i hnot
      rw [find_ack_none hnot] at hm
      exact hm

end Regular

section Migrated

variable {db : LegacyDatabase}

/-- What the migration leaves of a database. -/
structure Migrated (db : LegacyDatabase) (s : Store) : Prop where
  acked : ∀ p ∈ db.outboundAckPending.rows, ∀ m ∈ db.store.message.rows,
    m.id = p.messageId → m.acknowledgedBy p ∈ s.message.rows
  unique : ∀ m ∈ s.message.rows, ∀ m' ∈ s.message.rows, ∀ sid, 0 < sid →
    m.serverMessageId = some sid → m'.serverMessageId = some sid → m = m'
  unacked : ∀ m, (∀ p ∈ db.outboundAckPending.rows, p.messageId ≠ m.id) →
    (m ∈ s.message.rows ↔
      m ∈ db.store.message.rows ∧ isDropped db.ackDup m.id = false)
  extra : extraRef.Merged db.ackDup
    (fun keep drop => if keep.extraVersion < drop.extraVersion then
      { drop with messageId := keep.messageId } else keep)
    db.store.messageExtra s.messageExtra
  reaction : reactionRef.Merged db.ackDup
    (fun keep drop => if keep.seq < drop.seq then
      { keep with seq := drop.seq, isDeleted := drop.isDeleted } else keep)
    db.store.messageReaction s.messageReaction
  mention : mentionRef.Merged db.ackDup
    (fun keep drop => { keep with isRead := keep.isRead || drop.isRead })
    db.store.mention s.mention
  reminder : s.reminder.rows = db.store.reminder.rows.map (fun r =>
    if isDropped db.ackDup r.messageId then
      { r with messageId := keptOf db.ackDup r.messageId } else r)
  surviving : ∀ {k d}, (k, d) ∈ db.ackDup → ∃ m ∈ s.message.rows, m.id = k
  removed : ∀ {k d}, (k, d) ∈ db.ackDup →
    (∀ m ∈ s.message.rows, m.id ≠ d) ∧ s.NothingAttached d

/-- Once the rows of a dropped object are merged, no row refers to it. -/
theorem merged_not_target
    {ρ κ β : Type} [Record ρ κ] [DecidableEq κ] {ref : Reference ρ β}
    {pairs : List (Nat × Nat)} {join : ρ → ρ → ρ} {t t' : Table ρ} {k d : Nat}
    (h : ref.Merged pairs join t t') (hmem : (k, d) ∈ pairs) :
    ∀ r ∈ t'.rows, ref.target r ≠ d := by
  intro r hr htarget
  have hrow : ref.row t' d (ref.part r) = some r :=
    Reference.row_eq_some_iff.mpr ⟨hr, htarget, rfl⟩
  rw [h.dropped hmem] at hrow
  cases hrow

/-- A merge that joins the rows in the same way is the same merge. -/
theorem merged_congr
    {ρ κ β : Type} [Record ρ κ] [DecidableEq κ] {ref : Reference ρ β}
    {pairs : List (Nat × Nat)} {join join' : ρ → ρ → ρ} {t t' : Table ρ}
    (h : ref.Merged pairs join t t') (heq : ∀ r x, join r x = join' r x) :
    ref.Merged pairs join' t t' := by
  have hjoin : join = join' := funext (fun r => funext (heq r))
  rwa [← hjoin]

theorem exists_migrateExtra
    {dup : List (Nat × Nat)} (h : Pairing dup) (t : Table MessageExtraRow) :
    ∃ t', migrateExtra dup t = some t' ∧ extraRef.Merged dup
      (fun keep drop => if keep.extraVersion < drop.extraVersion then
        { drop with messageId := keep.messageId } else keep) t t' := by
  obtain ⟨t', ht', hmerged⟩ := h.merged_newest extraRef
    (fun keep drop => decide (keep.extraVersion < drop.extraVersion)) t
  have hcovers : (fun (keep drop : MessageExtraRow) =>
      decide (drop.extraVersion ≤ keep.extraVersion)) =
      fun keep drop => !decide (keep.extraVersion < drop.extraVersion) := by
    funext keep drop
    rw [← decide_not]
    exact decide_eq_decide.mpr Int.not_lt.symm
  refine ⟨t', ?_, merged_congr hmerged (fun r x => by simp [extraRef])⟩
  rw [migrateExtra, hcovers]
  exact ht'

theorem exists_migrateReaction
    {dup : List (Nat × Nat)} (h : Pairing dup) (t : Table MessageReactionRow) :
    ∃ t', migrateReaction dup t = some t' ∧ reactionRef.Merged dup
      (fun keep drop => if keep.seq < drop.seq then
        { keep with seq := drop.seq, isDeleted := drop.isDeleted } else keep)
      t t' := by
  obtain ⟨t', ht', hmerged⟩ := h.merged_align reactionRef
    (fun keep drop => decide (keep.seq < drop.seq))
    (fun keep drop => { keep with seq := drop.seq, isDeleted := drop.isDeleted })
    (fun _ _ => rfl) (fun _ _ => rfl) t
  exact ⟨t', ht', merged_congr hmerged (fun r x => by simp)⟩

theorem exists_migrateMention
    {dup : List (Nat × Nat)} (h : Pairing dup) (t : Table MentionRow) :
    ∃ t', migrateMention dup t = some t' ∧ mentionRef.Merged dup
      (fun keep drop => { keep with isRead := keep.isRead || drop.isRead }) t t' := by
  obtain ⟨t', ht', hmerged⟩ := h.merged_align mentionRef
    (fun _ drop => drop.isRead) (fun keep _ => { keep with isRead := true })
    (fun _ _ => rfl) (fun _ _ => rfl) t
  refine ⟨t', ht', merged_congr hmerged (fun r x => ?_)⟩
  cases hread : x.isRead with
  | true =>
      simp
  | false =>
      simp

/-- A reminder is never left on a copy. -/
theorem migrateReminder_not_dropped
    {dup : List (Nat × Nat)} (h : Pairing dup) {t : Table ReminderRow} {k d : Nat}
    (hmem : (k, d) ∈ dup) :
    ∀ r ∈ (migrateReminder dup t).rows, r.messageId ≠ d := by
  intro r hr hid
  obtain ⟨r₀, -, rfl⟩ := Table.mem_modify.mp hr
  split at hid
  · rename_i hdropped
    obtain ⟨k', hk'⟩ := isDropped_iff.mp hdropped
    rw [h.keptOf_eq hk'] at hid
    exact h.apart hk' hmem hid
  · rename_i hkept
    exact hkept (isDropped_iff.mpr ⟨k, hid ▸ hmem⟩)

/-- An acknowledgement does not change the id of a message. -/
theorem acknowledged_id (p : Option OutboundAckRow) (m : MessageRow) :
    ((p.map (fun p => m.acknowledgedBy p)).getD m).id = m.id := by
  cases p with
  | none => rfl
  | some p => rfl

/--
The migration of a regular database goes through: every acknowledged message
carries its server id, no server id is there twice, and what was attached to a
copy is merged into the message that is kept.
-/
theorem migrateOutbox_regular (db : LegacyDatabase) (h : db.Regular) :
    ∃ s, migrateOutbox db = some s ∧ Migrated db s := by
  obtain ⟨extra, hextra, hextraMerged⟩ :=
    exists_migrateExtra h.pairing db.store.messageExtra
  obtain ⟨reaction, hreaction, hreactionMerged⟩ :=
    exists_migrateReaction h.pairing db.store.messageReaction
  obtain ⟨mention, hmention, hmentionMerged⟩ :=
    exists_migrateMention h.pairing db.store.mention
  obtain ⟨message, hmessage, hrows⟩ := h.exists_applyAcks
  have hacked : ∀ p ∈ db.outboundAckPending.rows, ∀ m ∈ db.store.message.rows,
      m.id = p.messageId → m.acknowledgedBy p ∈ message.rows := by
    intro p hp m hm hid
    refine (hrows _).mpr ⟨m, hm, ?_, ?_⟩
    · rw [← Bool.not_eq_true, isDropped_iff]
      rintro ⟨k, hk⟩
      exact h.unacked hk p hp hid.symm
    · rw [hid, find_ack hp]
      rfl
  refine ⟨{ db.store with
    message := message
    messageExtra := extra
    messageReaction := reaction
    mention := mention
    reminder := migrateReminder db.ackDup db.store.reminder }, ?_, ?_⟩
  · simp only [migrateOutbox, hextra, hreaction, hmention, hmessage,
      Option.bind_eq_bind, Option.bind_some]
  · refine
      { acked := hacked
        unique := ?_
        unacked := ?_
        extra := hextraMerged
        reaction := hreactionMerged
        mention := hmentionMerged
        reminder := rfl
        surviving := ?_
        removed := ?_ }
    · intro m hm m' hm' sid hpos hsid hsid'
      exact message_eq_of_serverId hm hm' hpos hsid hsid'
    · intro m hnone
      refine (hrows m).trans ⟨?_, ?_⟩
      · rintro ⟨m₀, hm₀, hkept, hm⟩
        cases hfind : db.outboundAckPending.rows.find?
            (fun p => p.messageId == m₀.id) with
        | none =>
            rw [hfind] at hm
            cases hm
            exact ⟨hm₀, hkept⟩
        | some p =>
            rw [hfind] at hm
            have hid : p.messageId = m₀.id := by
              simpa using List.find?_some hfind
            cases hm
            exact absurd hid (hnone p (List.mem_of_find?_eq_some hfind))
      · rintro ⟨hm, hkept⟩
        have hfind : db.outboundAckPending.rows.find?
            (fun p => p.messageId == m.id) = none := by
          rw [List.find?_eq_none]
          intro p hp hpm
          exact hnone p hp (by simpa using hpm)
        exact ⟨m, hm, hkept, by rw [hfind]; rfl⟩
    · intro k d hmem
      obtain ⟨m, hm, hid⟩ := h.stored hmem
      obtain ⟨p, hp, hpk, -⟩ := LegacyDatabase.mem_ackDup.mp hmem
      exact ⟨m.acknowledgedBy p, hacked p hp m hm (hid.trans hpk.symm), hid⟩
    · intro k d hmem
      have hdropped : isDropped db.ackDup d = true := isDropped_iff.mpr ⟨k, hmem⟩
      refine ⟨?_, ?_⟩
      · intro m hm hid
        obtain ⟨m₀, -, hkept, rfl⟩ := (hrows m).mp hm
        rw [acknowledged_id] at hid
        rw [hid, hdropped] at hkept
        cases hkept
      · rw [Store.nothingAttached_iff]
        exact ⟨merged_not_target hextraMerged hmem,
          merged_not_target hreactionMerged hmem,
          merged_not_target hmentionMerged hmem,
          migrateReminder_not_dropped h.pairing hmem⟩

end Migrated

section Samples

/-- The table with these rows, if they make one. -/
def tableOf
    {ρ κ : Type} [Record ρ κ] [DecidableEq κ] (rows : List ρ) (next : Nat) :
    Table ρ :=
  if h : (∀ r ∈ rows, Record.rowid r < next) ∧
      rows.Pairwise (fun a b => Record.rowid a < Record.rowid b) ∧
      KeysUnique rows then
    { rows := rows
      nextRowid := next
      rowid_lt := h.1
      sorted := h.2.1
      unique := h.2.2 }
  else
    .empty

/-- Messages with their server ids, pending acknowledgements, and extras. -/
def legacyDatabase
    (messages : List (Nat × Option Nat)) (acks : List OutboundAckRow)
    (extras : List MessageExtraRow) : LegacyDatabase where
  store :=
    { Store.empty with
      message := tableOf (messages.map (fun m =>
        { UpsertRemoteMessageInput.toRow (.text 0 0 100 200 0 "hi") 1 m.1 with
          serverMessageId := m.2 })) 10
      messageExtra := tableOf extras 10 }
  outboundAckPending := tableOf acks 10

def sampleExtra (id messageId : Nat) (version : Int) (readed : Bool) :
    MessageExtraRow where
  id := id
  messageId := messageId
  channelId := 100
  channelType := 1
  readed := readed
  readedCount := 0
  unreadCount := 0
  revoke := false
  revoker := none
  extraVersion := version
  isMutualDeleted := false
  contentEdit := none
  editedAt := 0
  needUpload := false
  isPinned := false
  delivered := false
  deliveredAt := 0

/-- The message 1 waits for its acknowledgement, and its copy is there. -/
def copiedDatabase : LegacyDatabase :=
  legacyDatabase [(1, none), (2, some 900)]
    [{ messageId := 1, serverMessageId := 900, messageSeq := 5 }]
    [sampleExtra 1 1 5 true, sampleExtra 2 2 9 false]

theorem migrateOutbox_copied :
    ∃ s, migrateOutbox copiedDatabase = some s ∧ Migrated copiedDatabase s := by
  have hdup : copiedDatabase.ackDup = [(1, 2)] := by decide +kernel
  refine migrateOutbox_regular copiedDatabase
    { positive := by decide +kernel
      distinct := by decide +kernel
      stored := ?_
      unacked := ?_ }
  · intro k d hmem
    rw [hdup, List.mem_singleton] at hmem
    cases hmem
    decide +kernel
  · intro k d hmem
    rw [hdup, List.mem_singleton] at hmem
    cases hmem
    decide +kernel

/--
The flags of the older extra are gone although they were larger, as its version
was lower.  Two acknowledgements with one server id make the migration fail; a
copy is deleted although its original is not stored; and a copy that waits for an
acknowledgement of its own is deleted with it.
-/
theorem migrateOutbox_irregular :
    (migrateOutbox copiedDatabase).map (fun s =>
        s.messageExtra.rows.map (fun r => (r.messageId, r.readed))) =
          some [(1, false)] ∧
      (migrateOutbox (legacyDatabase [(1, none), (2, none)]
          [{ messageId := 1, serverMessageId := 900, messageSeq := 5 },
            { messageId := 2, serverMessageId := 900, messageSeq := 5 }] [])).map
            (fun s => s.message.rows.map (fun m => m.id)) = none ∧
      (migrateOutbox (legacyDatabase [(2, some 900)]
          [{ messageId := 1, serverMessageId := 900, messageSeq := 5 }] [])).map
            (fun s => s.message.rows.map (fun m => m.id)) = some [] ∧
      (migrateOutbox (legacyDatabase [(1, none), (2, some 900)]
          [{ messageId := 1, serverMessageId := 900, messageSeq := 5 },
            { messageId := 2, serverMessageId := 901, messageSeq := 6 }] [])).map
            (fun s => s.message.rows.map (fun m => (m.id, m.serverMessageId))) =
              some [(1, some 900)] := by
  decide +kernel

end Samples

end PrivchatSdk
