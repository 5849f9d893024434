import PrivchatSdk.Lib.Run
import PrivchatSdk.Store.Upsert

/-!
# The read cursor of a channel

A channel has three records of what was read: the cursor `keep_pts` of its
`channel_extra` row, a flag in the `message_extra` row of every message that a
cursor passed, and the counter `unread_count` of its `channel` row.  Cursors,
realtime messages and `channel_extra` items write them one step at a time.

`ReadState.Consistent` says that the three agree; `read_state_consistent` says
which steps keep them agreeing, and where the cursor ends up.
-/

namespace PrivchatSdk

open StatementExec RelTable

section Rows

/-- The columns of table `channel` that an arriving message reads and writes. -/
structure ChannelRow where
  unreadCount : Int
  lastMsgTimestamp : Int
  lastLocalMessageId : Nat
  lastMsgContent : String
  version : Int
  isDeleted : Bool
  deriving DecidableEq, Repr

/-- Table `channel_extra`. -/
structure ChannelExtraRow where
  browseTo : Nat
  keepPts : Nat
  keepOffsetY : Int
  draft : String
  draftUpdatedAt : Nat
  version : Int
  deriving DecidableEq, Repr

structure UpsertChannelExtraInput where
  browseTo : Nat
  keepPts : Nat
  keepOffsetY : Int
  draft : String
  draftUpdatedAt : Nat
  deriving DecidableEq, Repr

/-- The account database with the rows of one channel of an account. -/
structure ReadState where
  uid : Nat
  channelId : Nat
  channelType : Int
  base : Store
  channel : Option ChannelRow
  channelExtra : Option ChannelExtraRow

/-- The message is one of the channel. -/
def ReadState.has (s : ReadState) (r : MessageRow) : Bool :=
  r.channelId == s.channelId && r.channelType == s.channelType

/-- The cursor; a channel without extra row was never read. -/
def ReadState.keepPts (s : ReadState) : Nat :=
  (s.channelExtra.map (fun x => x.keepPts)).getD 0

/-- The messages of others beyond a cursor. -/
def ReadState.unreadBeyond (s : ReadState) (keep : Nat) : Nat :=
  s.base.message.rows.countP (fun r =>
    s.has r && r.fromUid != s.uid && decide ((keep : Int) < r.pts))

/-- A cursor has passed the message. -/
def ReadState.isRead (s : ReadState) (messageId : Nat) : Bool :=
  (s.base.messageExtra.lookup messageId).any (fun x => x.readed)

end Rows

section Cursor

/-- The read columns, on insert. -/
def readInsert (now : Int) : ExtraWrite where
  apply r := { r with
    readed := true, readedCount := 1, unreadCount := 0, extraVersion := now }

/-- The read columns, on conflict. -/
def readUpdate (now : Int) : ExtraWrite where
  apply r := { r with
    readed := true
    readedCount := if r.readedCount < 1 then 1 else r.readedCount
    unreadCount := 0
    extraVersion := now }

/-- `INSERT INTO message_extra .. SELECT` over the messages that `p` selects. -/
def flagMessages
    (p : MessageRow → Bool) (now : Int) :
    List MessageRow → Table MessageExtraRow → Table MessageExtraRow
  | [], t => t
  | r :: rows, t =>
      if p r then
        flagMessages p now rows
          (upsertedExtra t r.id r.channelId r.channelType
            (readInsert now) (readUpdate now))
      else
        flagMessages p now rows t

/-- A message that the cursor passes on its way from `old` to `new`. -/
def ReadState.passed (s : ReadState) (old new : Nat) (r : MessageRow) : Bool :=
  s.has r && decide ((old : Int) < r.pts) && decide (r.pts ≤ (new : Int))

/-- The `channel_extra` row after a cursor. -/
def cursorExtra (existing : Option ChannelExtraRow) (effective : Nat) (now : Int) :
    ChannelExtraRow :=
  match existing with
  | some x =>
      { x with
        browseTo := max x.browseTo effective
        keepPts := max x.keepPts effective
        version := now }
  | none =>
      { browseTo := effective
        keepPts := effective
        keepOffsetY := 0
        draft := ""
        draftUpdatedAt := 0
        version := now }

/-- `project_channel_read_cursor`. -/
def ReadState.projectChannelReadCursor
    (s : ReadState) (lastReadPts : Nat) (now : Int) : ReadState :=
  let existing := s.keepPts
  let effective := max existing lastReadPts
  if effective = existing then
    s
  else
    let newlyRead := s.base.message.rows.countP (fun r =>
      s.passed existing effective r && r.fromUid != s.uid)
    { s with
      channelExtra := some (cursorExtra s.channelExtra effective now)
      base := { s.base with
        messageExtra := flagMessages (s.passed existing effective) now
          s.base.message.rows s.base.messageExtra }
      -- the cursor never creates the channel row
      channel := s.channel.map (fun c =>
        { c with unreadCount := max 0 (c.unreadCount - newlyRead) }) }

/-- `upsert_channel_extra`: every column is replaced. -/
def ReadState.upsertChannelExtra
    (s : ReadState) (input : UpsertChannelExtraInput) (now : Int) : ReadState :=
  { s with
    channelExtra := some
      { browseTo := input.browseTo
        keepPts := input.keepPts
        keepOffsetY := input.keepOffsetY
        draft := input.draft
        draftUpdatedAt := input.draftUpdatedAt
        version := now } }

end Cursor

section Arrival

/-- The largest `pts` of the channel, 0 without messages. -/
def ReadState.maxPts (s : ReadState) : Int :=
  (((s.base.message.rows.filter s.has).map (fun r => r.pts)).max?).getD 0

/-- `resolve_channel_unread_on_read`: the count that a channel row is read with. -/
def ReadState.resolveChannelUnreadOnRead
    (s : ReadState) (unreadCount : Int) : Int :=
  match s.channelExtra with
  | none => max 0 unreadCount
  | some x =>
      if s.maxPts = 0 ∨ (x.keepPts : Int) < s.maxPts then
        max 0 unreadCount
      else
        s.unreadBeyond x.keepPts

/--
The display order: pending messages first, then by `pts`.  A missing server id
sorts lowest.
-/
def previewBefore (a b : MessageRow) : Bool :=
  let pending (r : MessageRow) := decide (r.serverMessageId.getD 0 = 0)
  let serverId (r : MessageRow) : Int := r.serverMessageId.elim (-1) (fun sid => (sid : Int))
  if pending a != pending b then pending a
  else if a.pts ≠ b.pts then decide (b.pts < a.pts)
  else if a.serverMessageId ≠ b.serverMessageId then decide (serverId b < serverId a)
  else decide (b.id < a.id)

/-- The message that the channel row is joined with. -/
def ReadState.previewRow (s : ReadState) : Option MessageRow :=
  (s.base.message.rows.filter s.has).foldl
    (fun best r =>
      match best with
      | none => some r
      | some b => if previewBefore r b then some r else some b)
    none

/--
`get_channel_by_id`: the row of a channel that is not hidden, its preview taken
from the messages and its count resolved.
-/
def ReadState.getChannelById (s : ReadState) : Option ChannelRow :=
  match s.channel with
  | none => none
  | some c =>
      if c.isDeleted then
        none
      else
        some
          { c with
            unreadCount := s.resolveChannelUnreadOnRead c.unreadCount
            lastMsgTimestamp :=
              (s.previewRow.map (fun r => r.createdAt)).getD c.lastMsgTimestamp
            lastLocalMessageId :=
              (s.previewRow.map (fun r => r.id)).getD c.lastLocalMessageId
            lastMsgContent :=
              (s.previewRow.map (fun r => r.content)).getD c.lastMsgContent }

/-- The write of `resolve_channel_unread_on_read`: a wrong count is replaced. -/
def ReadState.healed (s : ReadState) : ReadState :=
  { s with
    channel := s.channel.map (fun c =>
      if c.isDeleted then c
      else if s.resolveChannelUnreadOnRead c.unreadCount = max 0 c.unreadCount then
        c
      else
        { c with unreadCount := s.resolveChannelUnreadOnRead c.unreadCount }) }

/-- `saturating_add(1)` of an `i32`. -/
def saturatingSucc (n : Int) : Int :=
  min (n + 1) (2 ^ 31 - 1)

theorem saturatingSucc_eq {n : Int} (h : n + 1 < 2 ^ 31) :
    saturatingSucc n = n + 1 :=
  Int.min_eq_left (by omega)

/-- `upsert_channel`: an older version of the entity does not replace a newer. -/
def upsertedChannel (existing : Option ChannelRow) (input : ChannelRow) :
    ChannelRow :=
  match existing with
  | none => input
  | some c =>
      if c.version ≤ input.version then
        { input with
          isDeleted :=
            if c.lastMsgTimestamp < input.lastMsgTimestamp then false
            else c.isDeleted }
      else
        c

/-- Whether the new message takes the preview over from the former one. -/
def ReadState.previewShouldUpdate (s : ReadState) (previous messageId : Nat) :
    Bool :=
  if previous = 0 ∨ previous = messageId then
    true
  else
    match s.base.message.byRowid messageId with
    | none => true
    | some new =>
        if new.serverMessageId.getD 0 = 0 then
          true
        else
          match s.base.message.byRowid previous with
          | none => true
          | some old =>
              if old.serverMessageId.getD 0 = 0 then true
              else decide (max old.pts 0 ≤ max new.pts 0)

/-- `update_channel_last_message`. -/
def ReadState.updateChannelLastMessage
    (s : ReadState) (content : String) (timestampMs : Int) (messageId : Nat)
    (bumpUnread : Bool) : ReadState :=
  let existing := s.getChannelById
  let s' := s.healed
  let unread :=
    match existing with
    | some c => if bumpUnread then saturatingSucc c.unreadCount else c.unreadCount
    | none => if bumpUnread then 1 else 0
  let previous := (existing.map (fun c => c.lastLocalMessageId)).getD 0
  let takes := s'.previewShouldUpdate previous messageId
  { s' with
    channel := some (upsertedChannel s'.channel
      { unreadCount := unread
        lastMsgTimestamp :=
          if takes then timestampMs
          else (existing.map (fun c => c.lastMsgTimestamp)).getD 0
        lastLocalMessageId := if takes then messageId else previous
        lastMsgContent :=
          if takes then content
          else (existing.map (fun c => c.lastMsgContent)).getD ""
        version := (existing.map (fun c => c.version)).getD 0
        isDeleted := false }) }

/-- The cursor is behind the message. -/
def ReadState.isAfterReadCursor (s : ReadState) (pts : Int) : Bool :=
  match s.channelExtra with
  | some x => decide (x.keepPts < pts.toNat)
  | none => true

/-- The message branch of `apply_sync_entities` for a realtime message. -/
def ReadState.receive
    (s : ReadState) (input : UpsertRemoteMessageInput)
    (content : String) (timestamp : Int) (now : Int) : ReadState :=
  match upsertRemoteMessageWithResult (some s.uid) input (.calm now) s.base with
  | (.error _, base) => { s with base := base }
  | (.ok upserted, base) =>
      let s' := { s with base := base }
      s'.updateChannelLastMessage content timestamp upserted.messageId
        (upserted.insertedNew && input.fromUid != s.uid &&
          s'.isAfterReadCursor input.pts)

end Arrival

section Events

/-- What happens to the channel. -/
inductive ReadEvent where
  | message (input : UpsertRemoteMessageInput) (content : String)
      (timestamp : Int)
  | cursor (lastReadPts : Nat)
  | channelExtra (input : UpsertChannelExtraInput)

/-- One event, at a time of the clock. -/
def ReadState.step (s : ReadState) (e : Int × ReadEvent) : ReadState :=
  match e.2 with
  | .message input content timestamp => s.receive input content timestamp e.1
  | .cursor lastReadPts =>
      if 0 < lastReadPts then
        s.projectChannelReadCursor lastReadPts e.1
      else
        s
  | .channelExtra input => s.upsertChannelExtra input e.1

/-- The cursor that an event brings. -/
def ReadEvent.cursor? : ReadEvent → Nat
  | .message _ _ _ => 0
  | .cursor lastReadPts => lastReadPts
  | .channelExtra input => input.keepPts

end Events

section Invariant

/-- Cursor, flags and counter agree. -/
structure ReadState.Consistent (s : ReadState) : Prop where
  unread : ∃ c, s.channel = some c ∧ c.isDeleted = false ∧
    c.unreadCount = s.unreadBeyond s.keepPts
  flags : ∀ r ∈ s.base.message.rows, s.has r = true →
    (s.isRead r.id = true ↔ r.pts ≤ s.keepPts)
  extras : ∀ x ∈ s.base.messageExtra.rows,
    x.messageId < s.base.message.nextRowid

/-- The row that a duplicate rewrites keeps its sender's side and the cursor's. -/
def ReadState.SameReading
    (s : ReadState) (input : UpsertRemoteMessageInput) (row : MessageRow) : Prop :=
  s.has row = true ∧ (row.fromUid = s.uid ↔ input.fromUid = s.uid) ∧
    (row.pts ≤ s.keepPts ↔ input.pts ≤ s.keepPts)

/--
A message that is new comes after the cursor and its count fits; one that is
stored is a replay of the same message, in one row.
-/
def ReadState.ArrivalKeeps
    (s : ReadState) (input : UpsertRemoteMessageInput) : Prop :=
  input.channelId = s.channelId ∧ input.channelType = s.channelType ∧
    match s.base.byServerId input.serverMessageId,
        s.base.byInputLocalId (some s.uid) input with
    | none, none =>
        (s.keepPts : Int) < input.pts ∧
          s.unreadBeyond s.keepPts + 1 < 2 ^ 31
    | some row, none => input.stale row = false → s.SameReading input row
    | none, some row => input.stale row = false → s.SameReading input row
    | some row, some localRow =>
        input.stale row = false →
          localRow.id = row.id ∧ s.SameReading input row

/-- A `channel_extra` item neither lowers the cursor nor moves it past a message. -/
def ReadState.ItemKeeps
    (s : ReadState) (input : UpsertChannelExtraInput) : Prop :=
  s.keepPts ≤ input.keepPts ∧
    ∀ r ∈ s.base.message.rows, s.has r = true →
      (r.pts ≤ s.keepPts ↔ r.pts ≤ input.keepPts)

/-- The condition on one step. -/
def ReadState.StepKeeps (s : ReadState) (e : Int × ReadEvent) : Prop :=
  match e.2 with
  | .message input _ _ => s.ArrivalKeeps input
  | .cursor _ => True
  | .channelExtra input => s.ItemKeeps input

variable {s : ReadState}

theorem ReadState.unreadBeyond_congr
    {keep keep' : Nat}
    (h : ∀ r ∈ s.base.message.rows, s.has r = true →
      (r.pts ≤ keep ↔ r.pts ≤ keep')) :
    s.unreadBeyond keep = s.unreadBeyond keep' := by
  unfold ReadState.unreadBeyond
  refine List.countP_congr (fun r hr => ?_)
  cases hhas : s.has r with
  | false =>
      simp
  | true =>
      have hside : (keep : Int) < r.pts ↔ (keep' : Int) < r.pts := by
        have := h r hr hhas
        omega
      simp [hside]

/-- An item that does not move the cursor past a message keeps the agreement. -/
theorem ReadState.Consistent.channelExtra
    (h : s.Consistent) {input : UpsertChannelExtraInput}
    (hkeep : s.ItemKeeps input) (now : Int) :
    (s.upsertChannelExtra input now).Consistent where
  unread := by
    obtain ⟨c, hc, hvisible, hcount⟩ := h.unread
    refine ⟨c, hc, hvisible, hcount.trans (congrArg Nat.cast ?_)⟩
    exact s.unreadBeyond_congr hkeep.2
  flags r hr hhas := (h.flags r hr hhas).trans (hkeep.2 r hr hhas)
  extras := h.extras

end Invariant

section CursorStep

variable {s : ReadState}

/-- What the flagging statement leaves under a message id. -/
theorem lookup_flagMessages
    (p : MessageRow → Bool) (now : Int) (rows : List MessageRow)
    (t : Table MessageExtraRow) (m : Nat) :
    ((flagMessages p now rows t).lookup m).any (fun x => x.readed) = true ↔
      (t.lookup m).any (fun x => x.readed) = true ∨
        ∃ r ∈ rows, p r = true ∧ r.id = m := by
  induction rows generalizing t with
  | nil =>
      simp [flagMessages]
  | cons r rows ih =>
      unfold flagMessages
      by_cases hp : p r = true
      · rw [if_pos hp, ih]
        by_cases hm : m = r.id
        · subst hm
          rw [lookup_upsertedExtra_self]
          have hread : (some (((t.lookup r.id).map (readUpdate now).apply).getD
              ((readInsert now).apply (.new r.id r.channelId r.channelType
                t.nextRowid)))).any (fun x => x.readed) = true := by
            cases t.lookup r.id with
            | none =>
                rfl
            | some x =>
                rfl
          simp [hread, hp]
        · rw [lookup_upsertedExtra_of_ne _ _ _ _ _ _ hm]
          simp [hp, Ne.symm hm]
      · rw [if_neg hp, ih]
        simp [hp]

/-- Flagging creates extra rows of stored messages only. -/
theorem messageId_flagMessages
    {p : MessageRow → Bool} {now : Int} {rows : List MessageRow}
    {t : Table MessageExtraRow} {bound : Nat}
    (ht : ∀ x ∈ t.rows, x.messageId < bound)
    (hrows : ∀ r ∈ rows, r.id < bound) :
    ∀ x ∈ (flagMessages p now rows t).rows, x.messageId < bound := by
  induction rows generalizing t with
  | nil =>
      exact ht
  | cons r rows ih =>
      have hrest := fun r' hr' => hrows r' (List.mem_cons_of_mem _ hr')
      unfold flagMessages
      split
      · refine ih (fun x hx => ?_) hrest
        by_cases hm : x.messageId = r.id
        · rw [hm]
          exact hrows r List.mem_cons_self
        · refine ht x (Table.mem_of_mem_upsert hx ?_)
          rw [keys_extra, List.mem_singleton]
          exact Ne.symm hm
      · exact ih ht hrest

/-- The cursor counts down exactly the messages of others that it passes. -/
theorem ReadState.unreadBeyond_passed
    {old new : Nat} (hle : old ≤ new) :
    s.unreadBeyond old =
      s.unreadBeyond new +
        s.base.message.rows.countP (fun r =>
          s.passed old new r && r.fromUid != s.uid) := by
  unfold ReadState.unreadBeyond ReadState.passed
  induction s.base.message.rows with
  | nil =>
      rfl
  | cons r rows ih =>
      rw [List.countP_cons, List.countP_cons, List.countP_cons, ih]
      cases s.has r with
      | false =>
          simp
      | true =>
          cases r.fromUid != s.uid with
          | false =>
              simp
          | true =>
              by_cases hold : (old : Int) < r.pts
              · by_cases hnew : (new : Int) < r.pts
                · have hnot : ¬ r.pts ≤ (new : Int) := by omega
                  simp [hold, hnew, hnot]
                  omega
                · have hpassed : r.pts ≤ (new : Int) := by omega
                  simp [hold, hnew, hpassed]
                  omega
              · have hnew : ¬ (new : Int) < r.pts := by omega
                simp [hold, hnew]

/-- A cursor keeps the agreement and moves to the larger of the two. -/
theorem ReadState.Consistent.cursor
    (h : s.Consistent) (lastReadPts : Nat) (now : Int) :
    (s.projectChannelReadCursor lastReadPts now).Consistent ∧
      (s.projectChannelReadCursor lastReadPts now).keepPts =
        max s.keepPts lastReadPts := by
  unfold ReadState.projectChannelReadCursor
  dsimp only
  split
  · rename_i hsame
    exact ⟨h, hsame.symm⟩
  · rename_i hmoved
    have hkeep : (cursorExtra s.channelExtra (max s.keepPts lastReadPts)
        now).keepPts = max s.keepPts lastReadPts := by
      unfold cursorExtra ReadState.keepPts
      cases s.channelExtra with
      | none =>
          rfl
      | some x =>
          exact Nat.max_eq_right (Nat.le_max_left _ _)
    refine ⟨⟨?_, ?_, ?_⟩, hkeep⟩
    · obtain ⟨c, hc, hvisible, hcount⟩ := h.unread
      refine ⟨_, congrArg (Option.map _) hc, hvisible, ?_⟩
      have hpassed := s.unreadBeyond_passed
        (Nat.le_max_left s.keepPts lastReadPts)
      refine Eq.trans ?_
        (congrArg (fun k => ((s.unreadBeyond k : Nat) : Int)) hkeep.symm)
      dsimp only
      rw [hcount]
      omega
    · intro r hr hhas
      have hold := h.flags r hr hhas
      refine (lookup_flagMessages _ _ _ _ _).trans ?_
      have hself : (∃ r' ∈ s.base.message.rows,
          s.passed s.keepPts (max s.keepPts lastReadPts) r' = true ∧
            r'.id = r.id) ↔
          s.passed s.keepPts (max s.keepPts lastReadPts) r = true := by
        constructor
        · rintro ⟨r', hr', hpassed, hid⟩
          rwa [s.base.message.rowid_inj hr' hr hid] at hpassed
        · intro hpassed
          exact ⟨r, hr, hpassed, rfl⟩
      have hhas' : s.has r = true := hhas
      rw [hself]
      refine Iff.trans ?_
        (Iff.of_eq (congrArg (fun k : Nat => r.pts ≤ (k : Int)) hkeep.symm))
      refine (or_congr_left hold).trans ?_
      simp only [ReadState.passed, hhas', Bool.true_and, Bool.and_eq_true,
        decide_eq_true_eq]
      omega
    · exact messageId_flagMessages h.extras s.base.message.rowid_lt

end CursorStep

section ArrivalStep

variable {s : ReadState}

/-- The count that the channel row is read with, where it is right already. -/
theorem ReadState.resolveChannelUnreadOnRead_eq
    (n : Nat) (h : s.channelExtra = none ∨ (s.keepPts : Int) < s.maxPts ∨
      n = s.unreadBeyond s.keepPts) :
    s.resolveChannelUnreadOnRead n = n := by
  unfold ReadState.resolveChannelUnreadOnRead ReadState.keepPts at *
  cases hx : s.channelExtra with
  | none =>
      exact Int.max_eq_right (Int.natCast_nonneg n)
  | some x =>
      rw [hx] at h
      simp only [reduceCtorEq, false_or, Option.map_some, Option.getD_some] at h
      dsimp only
      split
      · exact Int.max_eq_right (Int.natCast_nonneg n)
      · rename_i hexact
        exact congrArg Nat.cast
          (h.resolve_left (fun hlt => hexact (Or.inr hlt))).symm

/-- The row of a channel that is not hidden takes the resolved count, or one more. -/
theorem ReadState.updateChannelLastMessage_eq
    {c : ChannelRow} (hc : s.channel = some c) (hvisible : c.isDeleted = false)
    (content : String) (timestampMs : Int) (messageId : Nat) (bump : Bool) :
    ∃ c', s.updateChannelLastMessage content timestampMs messageId bump =
        { s with channel := some c' } ∧
      c'.isDeleted = false ∧
      c'.unreadCount =
        if bump then saturatingSucc (s.resolveChannelUnreadOnRead c.unreadCount)
        else s.resolveChannelUnreadOnRead c.unreadCount := by
  have hget : ∃ c₁, s.getChannelById = some c₁ ∧ c₁.version = c.version ∧
      c₁.unreadCount = s.resolveChannelUnreadOnRead c.unreadCount := by
    unfold ReadState.getChannelById
    rw [hc]
    dsimp only
    rw [hvisible]
    exact ⟨_, rfl, rfl, rfl⟩
  have hheal : ∃ c₂, s.healed.channel = some c₂ ∧ c₂.version = c.version ∧
      c₂.isDeleted = false := by
    unfold ReadState.healed
    dsimp only
    rw [hc, Option.map_some, hvisible, if_neg Bool.false_ne_true]
    split
    · exact ⟨c, rfl, rfl, hvisible⟩
    · exact ⟨_, rfl, rfl, rfl⟩
  obtain ⟨c₁, hget, hversion₁, hcount⟩ := hget
  obtain ⟨c₂, hheal, hversion₂, hvisible₂⟩ := hheal
  unfold ReadState.updateChannelLastMessage
  dsimp only
  rw [hget, hheal]
  dsimp only [Option.map_some, Option.getD_some]
  refine ⟨_, rfl, ?_, ?_⟩
  · unfold upsertedChannel
    dsimp only
    rw [if_pos (by omega)]
    dsimp only
    rw [hvisible₂, ite_self]
  · unfold upsertedChannel
    dsimp only
    rw [if_pos (by omega)]
    dsimp only
    rw [hcount]

/-- A right count makes the three records agree. -/
theorem ReadState.consistent_updateChannel
    {c : ChannelRow} (hc : s.channel = some c) (hvisible : c.isDeleted = false)
    (content : String) (timestampMs : Int) (messageId : Nat) {bump : Bool}
    (hcount : (if bump then
        saturatingSucc (s.resolveChannelUnreadOnRead c.unreadCount)
      else s.resolveChannelUnreadOnRead c.unreadCount) =
        s.unreadBeyond s.keepPts)
    (hflags : ∀ r ∈ s.base.message.rows, s.has r = true →
      (s.isRead r.id = true ↔ r.pts ≤ s.keepPts))
    (hextras : ∀ x ∈ s.base.messageExtra.rows,
      x.messageId < s.base.message.nextRowid) :
    (s.updateChannelLastMessage content timestampMs messageId
      bump).Consistent ∧
    (s.updateChannelLastMessage content timestampMs messageId bump).keepPts =
      s.keepPts := by
  obtain ⟨c', heq, hvisible', hcount'⟩ := s.updateChannelLastMessage_eq hc
    hvisible content timestampMs messageId bump
  rw [heq]
  refine ⟨⟨?_, hflags, hextras⟩, rfl⟩
  exact ⟨c', rfl, hvisible', hcount'.trans hcount⟩

/-- The revoke flag does not touch the read flags. -/
theorem isRead_takeRevoke
    (base : Store) (m n : Nat) (input : UpsertRemoteMessageInput) (now : Int) :
    ((base.takeRevoke m input now).messageExtra.lookup n).any
        (fun x => x.readed) =
      (base.messageExtra.lookup n).any (fun x => x.readed) := by
  unfold Store.takeRevoke
  split
  · unfold Store.flagRevoked
    dsimp only
    by_cases hn : n = m
    · subst hn
      rw [lookup_upsertedExtra_self]
      cases base.messageExtra.lookup n with
      | none =>
          rfl
      | some x =>
          rfl
    · rw [lookup_upsertedExtra_of_ne _ _ _ _ _ _ hn]
  · rfl

theorem extras_takeRevoke
    {base : Store} {m bound : Nat} {input : UpsertRemoteMessageInput} {now : Int}
    (h : ∀ x ∈ base.messageExtra.rows, x.messageId < bound) (hm : m < bound) :
    ∀ x ∈ (base.takeRevoke m input now).messageExtra.rows,
      x.messageId < bound := by
  unfold Store.takeRevoke
  split
  · intro x hx
    by_cases hxm : x.messageId = m
    · rw [hxm]
      exact hm
    · refine h x (Table.mem_of_mem_upsert hx ?_)
      rw [keys_extra, List.mem_singleton]
      exact Ne.symm hxm
  · exact h

/-- An update of rows that keeps what is counted keeps the count. -/
theorem countP_updatedRows
    {t : Table MessageRow} {p q : MessageRow → Bool} {f : MessageRow → MessageRow}
    (h : ∀ r ∈ t.rows, p r = true → q (f r) = q r) :
    (t.updatedRows p f).countP q = t.rows.countP q := by
  unfold Table.updatedRows
  rw [List.countP_map]
  refine List.countP_congr (fun r hr => ?_)
  simp only [Function.comp_apply]
  split
  · rename_i hp
    rw [h r hr hp]
  · rfl

theorem ReadState.le_maxPts
    {r : MessageRow} (hr : r ∈ s.base.message.rows) (hhas : s.has r = true) :
    r.pts ≤ s.maxPts := by
  have hmem : r.pts ∈ (s.base.message.rows.filter s.has).map (fun r => r.pts) :=
    List.mem_map.mpr ⟨r, List.mem_filter.mpr ⟨hr, hhas⟩, rfl⟩
  obtain ⟨m, hm⟩ := Option.isSome_iff_exists.mp (List.isSome_max?_of_mem hmem)
  unfold ReadState.maxPts
  rw [hm]
  exact (List.max?_le_iff hm).mp (Int.le_refl m) _ hmem

/-- A replay of a stored message keeps flags and count. -/
theorem ReadState.Consistent.rewritten
    (h : s.Consistent) {input : UpsertRemoteMessageInput} {now : Int}
    {row : MessageRow} {t : Table MessageRow}
    (hrow : row ∈ s.base.message.rows)
    (hchannel : input.channelId = s.channelId ∧
      input.channelType = s.channelType)
    (hsame : s.SameReading input row)
    (ht : s.base.message.update (fun r => Record.rowid r == row.id)
      (input.overwrite now) (fun _ => rfl) = some t) :
    ({ s with
      base := (Store.takeRevoke { s.base with message := t } row.id input now) } :
        ReadState).Consistent := by
  obtain ⟨hhas, hside, hpts⟩ := hsame
  obtain ⟨hrows, hnext⟩ := Table.rows_of_update ht
  have hid : ∀ r ∈ s.base.message.rows, r.id = row.id → r = row :=
    fun r hr hid => s.base.message.rowid_inj hr hrow hid
  have hmsg : (Store.takeRevoke { s.base with message := t } row.id input
      now).message = t := Store.takeRevoke_message _ _ _ _
  refine ⟨?_, ?_, ?_⟩
  · obtain ⟨c, hc, hvisible, hcount⟩ := h.unread
    refine ⟨c, hc, hvisible, hcount.trans (congrArg Nat.cast ?_)⟩
    unfold ReadState.unreadBeyond
    dsimp only
    rw [hmsg, hrows]
    refine (countP_updatedRows (fun r hr hp => ?_)).symm
    obtain rfl := hid r hr (by simpa using hp)
    have hhas' : s.has (input.overwrite now r) = s.has r := by
      rw [hhas]
      simp [ReadState.has, UpsertRemoteMessageInput.overwrite, hchannel]
    have hfrom : ((input.overwrite now r).fromUid != s.uid) =
        (r.fromUid != s.uid) := by
      have : input.fromUid = s.uid ↔ r.fromUid = s.uid := hside.symm
      simp [bne, beq_eq_decide, UpsertRemoteMessageInput.overwrite, this]
    have hbeyond : decide ((s.keepPts : Int) < (input.overwrite now r).pts) =
        decide ((s.keepPts : Int) < r.pts) := by
      refine decide_eq_decide.mpr ?_
      dsimp only [UpsertRemoteMessageInput.overwrite]
      omega
    have hall : (s.has (input.overwrite now r) &&
        (input.overwrite now r).fromUid != s.uid &&
        decide ((s.keepPts : Int) < (input.overwrite now r).pts)) =
        (s.has r && r.fromUid != s.uid && decide ((s.keepPts : Int) < r.pts)) := by
      rw [hhas', hfrom, hbeyond]
    exact hall
  · intro r hr hhasr
    refine Iff.trans (Iff.of_eq (congrArg (· = true)
      (isRead_takeRevoke _ row.id r.id input now))) ?_
    dsimp only at hr
    rw [hmsg] at hr
    rcases mem_of_update ht hr with ⟨r₀, hr₀, hr₀id, rfl⟩ | ⟨hr, -⟩
    · obtain rfl := hid r₀ hr₀ hr₀id
      exact (h.flags r₀ hr₀ hhas).trans hpts
    · exact h.flags r hr hhasr
  · rw [hmsg, hnext]
    exact extras_takeRevoke h.extras (s.base.message.rowid_lt row hrow)

/-- A message that is new comes without a read flag. -/
theorem ReadState.Consistent.inserted
    (h : s.Consistent) {input : UpsertRemoteMessageInput} {now : Int}
    {t : Table MessageRow}
    (hchannel : input.channelId = s.channelId ∧
      input.channelType = s.channelType)
    (hbeyond : (s.keepPts : Int) < input.pts)
    (ht : s.base.message.insert (input.toRow now) (fun _ => rfl) =
      some (t, s.base.message.nextRowid)) :
    let s' : ReadState := { s with
      base := (Store.takeRevoke { s.base with message := t }
        s.base.message.nextRowid input now) }
    (s'.unreadBeyond s.keepPts = s.unreadBeyond s.keepPts +
        if input.fromUid = s.uid then 0 else 1) ∧
      input.pts ≤ s'.maxPts ∧
      (∀ r ∈ s'.base.message.rows, s'.has r = true →
        (s'.isRead r.id = true ↔ r.pts ≤ s.keepPts)) ∧
      ∀ x ∈ s'.base.messageExtra.rows,
        x.messageId < s'.base.message.nextRowid := by
  obtain ⟨-, hrows, hnext⟩ := Table.rows_of_insert ht
  have hmsg : (Store.takeRevoke { s.base with message := t }
      s.base.message.nextRowid input now).message = t :=
    Store.takeRevoke_message _ _ _ _
  have hhas : s.has (input.toRow now s.base.message.nextRowid) = true := by
    simp [ReadState.has, UpsertRemoteMessageInput.toRow, hchannel]
  have hpts : (input.toRow now s.base.message.nextRowid).pts = input.pts := rfl
  have hfrom : (input.toRow now s.base.message.nextRowid).fromUid =
    input.fromUid := rfl
  refine ⟨?_, ?_, ?_, ?_⟩
  · unfold ReadState.unreadBeyond
    dsimp only
    rw [hmsg, hrows, List.countP_append, List.countP_singleton]
    have hrow : (s.has (input.toRow now s.base.message.nextRowid) &&
        (input.toRow now s.base.message.nextRowid).fromUid != s.uid &&
        decide ((s.keepPts : Int) <
          (input.toRow now s.base.message.nextRowid).pts)) =
        !decide (input.fromUid = s.uid) := by
      rw [hhas, hpts, hfrom]
      simp [hbeyond, bne, beq_eq_decide]
    refine congrArg (s.unreadBeyond s.keepPts + ·) ?_
    refine (if_congr (Iff.of_eq (congrArg (· = true) hrow)) rfl rfl).trans ?_
    by_cases hself : input.fromUid = s.uid
    · simp [hself]
    · simp [hself]
  · refine ReadState.le_maxPts (r := input.toRow now s.base.message.nextRowid)
      ?_ hhas
    dsimp only
    rw [hmsg, hrows]
    simp
  · intro r hr hhasr
    refine Iff.trans (Iff.of_eq (congrArg (· = true)
      (isRead_takeRevoke _ s.base.message.nextRowid r.id input now))) ?_
    dsimp only at hr
    rw [hmsg, hrows, List.mem_append, List.mem_singleton] at hr
    rcases hr with hr | rfl
    · exact h.flags r hr hhasr
    · have hnone : s.base.messageExtra.lookup s.base.message.nextRowid =
          none := by
        rw [Table.lookup_eq_none_iff]
        intro x hx hkey
        have hlt := h.extras x hx
        rw [keys_extra, List.mem_singleton] at hkey
        omega
      refine iff_of_false ?_ (by rw [hpts]; omega)
      have hid : (input.toRow now s.base.message.nextRowid).id =
        s.base.message.nextRowid := rfl
      rw [hid, hnone]
      simp
  · rw [hmsg, hnext]
    refine extras_takeRevoke (fun x hx => ?_) (Nat.lt_succ_self _)
    exact Nat.lt_succ_of_lt (h.extras x hx)

/-- Where the three records agree, an arrival that counts nothing keeps them so. -/
theorem ReadState.Consistent.updateChannel
    (h : s.Consistent) (content : String) (timestampMs : Int)
    (messageId : Nat) :
    (s.updateChannelLastMessage content timestampMs messageId
      false).Consistent ∧
    (s.updateChannelLastMessage content timestampMs messageId false).keepPts =
      s.keepPts := by
  obtain ⟨c, hc, hvisible, hcount⟩ := h.unread
  refine s.consistent_updateChannel hc hvisible content timestampMs messageId
    ?_ h.flags h.extras
  rw [if_neg Bool.false_ne_true, hcount]
  exact s.resolveChannelUnreadOnRead_eq _ (Or.inr (Or.inr rfl))

/-- The target of an arrival that keeps the agreement is a replayed row. -/
theorem ReadState.ArrivalKeeps.target
    {input : UpsertRemoteMessageInput} (hok : s.ArrivalKeeps input)
    {base : Table MessageRow} {row : MessageRow}
    (htarget : UpsertTarget (some s.uid) input s.base base row) :
    base = s.base.message ∧ s.SameReading input row := by
  obtain ⟨-, -, hok⟩ := hok
  cases htarget with
  | byServerId _ hrow hfresh hlocal =>
      refine ⟨rfl, ?_⟩
      rw [hrow] at hok
      split at hok
      · rename_i hfound _
        cases hfound
      · rename_i row' hfound _
        cases hfound
        exact hok hfresh
      · rename_i hfound _
        cases hfound
      · rename_i row' localRow hfound _
        cases hfound
        exact (hok hfresh).2
  | byLocalId _ hnone hrow hfresh =>
      rw [hnone, hrow] at hok
      exact ⟨rfl, hok hfresh⟩
  | merge drop _ hdrop hfresh hkeep hne =>
      rw [hdrop, hkeep] at hok
      exact absurd (hok hfresh).1 hne

/-- An arrival that is new or a replay keeps the agreement. -/
theorem ReadState.Consistent.receive
    (h : s.Consistent) {input : UpsertRemoteMessageInput}
    (hok : s.ArrivalKeeps input) (content : String) (timestamp now : Int) :
    (s.receive input content timestamp now).Consistent ∧
      (s.receive input content timestamp now).keepPts = s.keepPts := by
  by_cases hpos : 0 < input.serverMessageId
  swap
  · unfold ReadState.receive upsertRemoteMessageWithResult
    rw [if_pos (by omega)]
    exact ⟨h, rfl⟩
  obtain ⟨upserted, base', hrun⟩ := upsert_calm_ok input
    (some s.uid) s.base now hpos
  unfold ReadState.receive
  rw [hrun]
  cases upsert_outcome hrun with
  | stale row _ hrow hstale =>
      exact h.updateChannel content timestamp row.id
  | written base t row _ htarget ht =>
      obtain ⟨rfl, hsame⟩ := hok.target htarget
      have h' := h.rewritten (htarget.mem hpos).1 ⟨hok.1, hok.2.1⟩ hsame ht
      exact h'.updateChannel content timestamp row.id
  | inserted t _ hnone hnoneLocal ht =>
      obtain ⟨hchannel, htype, hok⟩ := hok
      rw [hnone, hnoneLocal] at hok
      obtain ⟨hbeyond, hroom⟩ := hok
      obtain ⟨hcount', hmax, hflags, hextras⟩ :=
        h.inserted ⟨hchannel, htype⟩ hbeyond ht
      obtain ⟨c, hc, hvisible, hcount⟩ := h.unread
      refine ReadState.consistent_updateChannel
        (s := { s with base := (Store.takeRevoke { s.base with message := t }
          s.base.message.nextRowid input (Env.calm now).now) })
        hc hvisible content timestamp _ ?_ hflags hextras
      have hresolve : ReadState.resolveChannelUnreadOnRead
          { s with base := (Store.takeRevoke { s.base with message := t }
              s.base.message.nextRowid input (Env.calm now).now) }
          c.unreadCount = c.unreadCount := by
        rw [hcount]
        exact ReadState.resolveChannelUnreadOnRead_eq _
          (Or.inr (Or.inl (Int.lt_of_lt_of_le hbeyond hmax)))
      have hafter : ReadState.isAfterReadCursor
          { s with base := (Store.takeRevoke { s.base with message := t }
              s.base.message.nextRowid input (Env.calm now).now) }
          input.pts = true := by
        unfold ReadState.isAfterReadCursor ReadState.keepPts at *
        cases hx : s.channelExtra with
        | none =>
            rfl
        | some x =>
            rw [hx] at hbeyond
            dsimp only [Option.map_some, Option.getD_some] at hbeyond ⊢
            exact decide_eq_true (by omega)
      dsimp only
      rw [hresolve, hafter, hcount]
      refine Eq.trans ?_ (congrArg (fun n : Nat => (n : Int)) hcount').symm
      by_cases hself : input.fromUid = s.uid
      · simp [hself]
      · have hother : (input.fromUid != s.uid) = true := by
          simpa using hself
        rw [hother, if_neg hself, Bool.and_self, Bool.and_self, if_pos rfl]
        exact saturatingSucc_eq (by exact_mod_cast hroom)

end ArrivalStep

section Runs

variable {s : ReadState}

/-- One step that meets its condition. -/
theorem ReadState.Consistent.step
    (h : s.Consistent) {e : Int × ReadEvent} (hok : s.StepKeeps e) :
    (s.step e).Consistent ∧ (s.step e).keepPts = max s.keepPts e.2.cursor? := by
  obtain ⟨now, e⟩ := e
  cases e with
  | message input content timestamp =>
      obtain ⟨h', hkeep⟩ := h.receive hok content timestamp now
      exact ⟨h', hkeep.trans (Nat.max_zero _).symm⟩
  | cursor lastReadPts =>
      unfold ReadState.step
      dsimp only
      split
      · exact h.cursor lastReadPts now
      · rename_i hzero
        refine ⟨h, ?_⟩
        dsimp only [ReadEvent.cursor?]
        omega
  | channelExtra input =>
      exact ⟨h.channelExtra hok now, (Nat.max_eq_right hok.1).symm⟩

/-- Where the cursor ends up in a run. -/
theorem ReadState.Consistent.run
    {events : List (Int × ReadEvent)} (hs : s.Consistent)
    (hok : EventRun.Guarded ReadState.step ReadState.StepKeeps s events) :
    (EventRun.run ReadState.step s events).Consistent ∧
      (EventRun.run ReadState.step s events).keepPts =
        (events.map (fun e => e.2.cursor?)).foldl max s.keepPts := by
  induction events generalizing s with
  | nil =>
      exact ⟨hs, rfl⟩
  | cons e events ih =>
      obtain ⟨h', hkeep⟩ := hs.step hok.1
      rw [List.map_cons, List.foldl_cons, ← hkeep]
      exact ih h' hok.2

/-- The largest cursor is at least the first one. -/
theorem le_foldl_max (cursors : List Nat) (keep : Nat) :
    keep ≤ cursors.foldl max keep := by
  induction cursors generalizing keep with
  | nil =>
      exact Nat.le_refl _
  | cons c cursors ih =>
      exact Nat.le_trans (Nat.le_max_left _ _) (ih _)

/--
In every run whose steps meet their condition the three records agree, the cursor
is the largest one seen, and so it is after the events in any other order.
-/
theorem read_state_consistent
    (s : ReadState) (hs : s.Consistent) (events : List (Int × ReadEvent))
    (hok : EventRun.Guarded ReadState.step ReadState.StepKeeps s events) :
    let s' := EventRun.run ReadState.step s events
    s.keepPts ≤ s'.keepPts ∧
      s'.keepPts = (events.map (fun e => e.2.cursor?)).foldl max s.keepPts ∧
      (∀ r ∈ s'.base.message.rows, s'.has r = true →
        (s'.isRead r.id = true ↔ r.pts ≤ s'.keepPts)) ∧
      (∃ c, s'.channel = some c ∧
        c.unreadCount = s'.unreadBeyond s'.keepPts) ∧
      ∀ events' : List (Int × ReadEvent), events'.Perm events →
        EventRun.Guarded ReadState.step ReadState.StepKeeps s events' →
        (EventRun.run ReadState.step s events').keepPts = s'.keepPts := by
  obtain ⟨h', hkeep⟩ := hs.run hok
  refine ⟨?_, hkeep, h'.flags, ?_, ?_⟩
  · rw [hkeep]
    exact le_foldl_max _ _
  · obtain ⟨c, hc, -, hcount⟩ := h'.unread
    exact ⟨c, hc, hcount⟩
  · intro events' hperm hok'
    rw [hkeep, (hs.run hok').2]
    refine (hperm.map (fun e => e.2.cursor?)).foldl_eq' ?_ _
    intro a _ b _ keep
    omega

/-- A channel that was never read and has no messages. -/
def sampleChannel : ReadState where
  uid := 1
  channelId := 10
  channelType := 1
  base := .empty
  channel := some
    { unreadCount := 0
      lastMsgTimestamp := 0
      lastLocalMessageId := 0
      lastMsgContent := ""
      version := 0
      isDeleted := false }
  channelExtra := none

theorem sampleChannel_consistent : sampleChannel.Consistent where
  unread := ⟨_, rfl, rfl, rfl⟩
  flags r hr := absurd hr (by simp [sampleChannel, Store.empty])
  extras x hx := absurd hx (by simp [sampleChannel, Store.empty])

theorem read_state_consistent_cursor :
    let s' := EventRun.run ReadState.step sampleChannel
      [(1, .cursor 5), (2, .message (.text 900 0 10 2 7 "hi") "hi" 3)]
    s'.keepPts = 5 ∧
      ∃ c, s'.channel = some c ∧ c.unreadCount = s'.unreadBeyond s'.keepPts := by
  have hnew : (5 : Int) < 7 ∧
      (sampleChannel.step (1, .cursor 5)).unreadBeyond 5 + 1 < 2 ^ 31 := by
    decide +kernel
  have h := read_state_consistent sampleChannel sampleChannel_consistent
    [(1, .cursor 5), (2, .message (.text 900 0 10 2 7 "hi") "hi" 3)]
    ⟨trivial, ⟨rfl, rfl, hnew⟩, trivial⟩
  exact ⟨h.2.1, h.2.2.2.1⟩

/--
A draft that is synced without a cursor lowers it from 10 to 0, and a message that
comes late, below the cursor, is never flagged.
-/
theorem read_state_diverges :
    (EventRun.run ReadState.step sampleChannel
        [(1, .cursor 10), (2, .channelExtra
          { browseTo := 0, keepPts := 0, keepOffsetY := 0, draft := "x"
            draftUpdatedAt := 2 })]).keepPts = 0 ∧
      (EventRun.run ReadState.step sampleChannel
        [(1, .cursor 10),
          (2, .message (.text 900 0 10 2 3 "hi") "hi" 3)]).keepPts = 10 ∧
      ((EventRun.run ReadState.step sampleChannel
        [(1, .cursor 10), (2, .message (.text 900 0 10 2 3 "hi") "hi" 3)]
          ).base.message.byRowid 1).map (fun r => r.pts) = some 3 ∧
      (EventRun.run ReadState.step sampleChannel
        [(1, .cursor 10),
          (2, .message (.text 900 0 10 2 3 "hi") "hi" 3)]).isRead 1 = false := by
  decide +kernel

end Runs

end PrivchatSdk
