import PrivchatSdk.Lib.UpdateOrder
import PrivchatSdk.EntitySync

/-!
# In which order the items of an entity may arrive

The items of one friend, user, group, member, reaction or reminder arrive in
batches: in any order, some again, each batch at some time of the clock.  What they
leave in the rows of the entity is compared with what they leave in version order.

The rows of an entity evolve by themselves (`rows_applySyncEntities`), so each kind
is one of the rows of `UpdateOrder`: a versioned register for friends, users, groups
and group members, a row that may be removed for friends and members, a row that
every item overwrites for channel members, reactions and reminders.
`any_order_iff_orderCondition` reads off when the order does not matter.
-/

namespace PrivchatSdk

open EventRun UpdateOrder StatementExec RelTable Receive

section Keys

/-- The entity that items are about. -/
inductive EntityKey where
  | friend (userId : Nat)
  | user (userId : Nat)
  | group (groupId : Nat)
  | groupMember (ids : Nat × Nat)
  | channelMember (ids : Nat × Int × Nat)
  | reaction (key : Nat × Nat × String)
  | reminder (reminderId : Nat)
  deriving DecidableEq, Repr

/-- The branch that applies the items of an entity. -/
def EntityKey.entityType : EntityKey → EntityType
  | .friend _ => .friend
  | .user _ => .user
  | .group _ => .group
  | .groupMember _ => .groupMember
  | .channelMember _ => .channelMember
  | .reaction _ => .reaction
  | .reminder _ => .reminder

/-- The rows of an entity; friends and channel members also write their user. -/
abbrev EntityKey.Rows : EntityKey → Type
  | .friend _ => Option FriendRow × Option UserRow
  | .user _ => Option UserRow
  | .group _ => Option GroupRow
  | .groupMember _ => Option GroupMemberRow
  | .channelMember _ => Option ChannelMemberRow × Option UserRow
  | .reaction _ => Option MessageReactionRow
  | .reminder _ => Option ReminderRow

/-- The rows that a store holds of an entity. -/
def EntityTables.rows (s : EntityTables) : (key : EntityKey) → key.Rows
  | .friend userId => (s.friend userId, s.user userId)
  | .user userId => s.user userId
  | .group groupId => s.group groupId
  | .groupMember ids => s.groupMember ids
  | .channelMember ids => (s.channelMember ids, s.user ids.2.2)
  | .reaction key => s.base.messageReaction.lookup key
  | .reminder reminderId => s.base.reminder.lookup reminderId

variable (codec : Codec) (decoder : EntityDecoder)

/-- The message, the user and the emoji of a reaction that is not skipped. -/
def Codec.reactionItemKey
    (base : Store) (i : ScopedItem) : Option (Nat × Nat × String) :=
  let channelId := itemChannelId i.scope (itemPayload i.item)
  let messageId :=
    base.linkTarget channelId (itemChannelType i.scope (itemPayload i.item))
      (rawMessageId i.item)
  if rawMessageId i.item = 0 ∨ channelId = 0 ∨ messageId = 0 ∨
      (codec.reactionKey i.item).1 = 0 ∨ (codec.reactionKey i.item).2 = "" then
    none
  else
    some (messageId, codec.reactionKey i.item)

/-- The item is about the entity. -/
def Codec.Concerns (s : EntityTables) (i : ScopedItem) : EntityKey → Prop
  | .friend userId => decoder.friendUserId i.item = userId ∧ userId ≠ 0
  | .user userId => itemUserId i.item = userId ∧ userId ≠ 0
  | .group groupId => decoder.itemGroupId i.item = groupId ∧ groupId ≠ 0
  | .groupMember ids =>
      decoder.groupMemberIds i.scope i.item = ids ∧ ids.1 ≠ 0 ∧ ids.2 ≠ 0
  | .channelMember ids =>
      decoder.channelMemberIds i.item = (ids.1, ids.2.2) ∧
        decoder.channelMemberType i.item = some ids.2.1 ∧
        ids.1 ≠ 0 ∧ ids.2.2 ≠ 0
  | .reaction key => codec.reactionItemKey s.base i = some key
  | .reminder reminderId => itemReminderId i.item = reminderId ∧ reminderId ≠ 0

/-- What a reaction item writes. -/
def Codec.reactionInput
    (i : ScopedItem) (messageId : Nat) (now : Int) :
    UpsertMessageReactionInput :=
  let payload := itemPayload i.item
  { channelId := itemChannelId i.scope payload
    channelType := itemChannelType i.scope payload
    uid := (codec.reactionKey i.item).1
    name := (codec.jsonGetString payload ["name", "nickname"]).getD ""
    emoji := (codec.reactionKey i.item).2
    messageId := messageId
    seq := (jsonGetI64 payload ["seq", "version"]).getD (wrapI64 i.item.version)
    isDeleted := i.item.deleted ||
      (jsonGetBool payload ["deleted", "is_deleted"]).getD false
    createdAt := (jsonGetI64 payload ["created_at"]).getD now }

end Keys

section Registers

variable {τ : Type} (clock : τ → Int) (codec : Codec) (decoder : EntityDecoder)

/-- The friend row takes what is not older. -/
def EntityDecoder.friendRegister :
    Register FriendRow τ ScopedItem FriendRow PUnit :=
  Register.whole (fun _ => true) (fun i => wrapI64 i.item.version)
    FriendRow.version (fun t i => decoder.friendInput i.item (clock t))
    (fun t i => decoder.friendInput_version i.item (clock t))

/-- The group member row takes what is not older. -/
def EntityDecoder.groupMemberRegister :
    Register GroupMemberRow τ ScopedItem GroupMemberRow PUnit :=
  Register.whole (fun _ => true) (fun i => wrapI64 i.item.version)
    GroupMemberRow.version (fun t i => decoder.groupMemberInput i.item (clock t))
    (fun t i => decoder.groupMemberInput_version i.item (clock t))

/-- The user row takes what is not older and keeps its username from a blank one. -/
def userRegister
    (τ : Type) (touches : ScopedItem → Bool) (input : ScopedItem → UserRow) :
    Register UserRow τ ScopedItem UserRow (Option String) where
  touches := touches
  version i := (input i).version
  rowVersion := UserRow.version
  core r := { r with username := none }
  kept := UserRow.username
  coreOf _ i := { input i with username := none }
  keptOf i :=
    if blankUsername (input i).username then none else some (input i).username
  initial i := (input i).username
  write _ i := (input i).writtenOver
  row_ext := by
    rintro ⟨⟩ ⟨⟩ hcore hkept
    simp_all
  write_version _ _ _ := rfl
  write_core _ _ _ := rfl
  write_kept := by
    intro _ i o
    unfold UserRow.writtenOver
    dsimp only
    split <;> rfl

/-- What friend items say about the user. -/
def EntityDecoder.embeddedUserRegister (τ : Type) :
    Register UserRow τ ScopedItem UserRow (Option String) :=
  userRegister τ (fun i => (decoder.embeddedUser i.item).isPresent)
    (fun i => decoder.embeddedUserInput i.item)

/-- What user items say. -/
def Codec.userItemRegister (τ : Type) :
    Register UserRow τ ScopedItem UserRow (Option String) :=
  userRegister τ (fun _ => true) (fun i => codec.userInput i.item)

/-- What channel member items say about the user. -/
def EntityDecoder.memberUserRegister (τ : Type) :
    Register UserRow τ ScopedItem UserRow (Option String) :=
  userRegister τ (fun i => !i.item.deleted && decoder.hydratesUser i.item)
    (fun i => decoder.memberUserInput i.item)

/-- The group row takes what is not older and keeps its count without a new one. -/
def Codec.groupRegister : Register GroupRow τ ScopedItem GroupRow Int where
  touches _ := true
  version i := wrapI64 i.item.version
  rowVersion := GroupRow.version
  core r := { r with memberCount := 0 }
  kept := GroupRow.memberCount
  coreOf t i :=
    { (codec.groupInput decoder i.item (clock t)).row with memberCount := 0 }
  keptOf i := decoder.groupMemberCount i.item
  initial _ := 0
  write t i := (codec.groupInput decoder i.item (clock t)).writtenOver
  row_ext := by
    rintro ⟨⟩ ⟨⟩ hcore hkept
    simp_all
  write_version t i o :=
    (UpsertGroupInput.writtenOver_version _ o).trans
      (codec.groupInput_version decoder i.item (clock t))
  write_core t i o := by
    rw [UpsertGroupInput.writtenOver]
  write_kept t i o := by
    rw [UpsertGroupInput.writtenOver, Codec.groupInput_memberCount]

/-- A step of a register is the guarded upsert. -/
theorem Register.step_eq_upsertVersioned
    {ρ ι β γ : Type} (R : Register ρ τ ι β γ) (o : Option ρ) (t : τ) {i : ι}
    (htouch : R.touches i = true) :
    R.step o (t, i) =
      upsertVersioned R.rowVersion (R.version i) (R.write t i) o := by
  unfold Register.step
  rw [if_pos htouch]
  cases o <;> rfl

variable {clock codec decoder}

theorem EntityDecoder.friendRegister_version (i : ScopedItem) :
    (decoder.friendRegister clock).version i = wrapI64 i.item.version := by
  dsimp only [EntityDecoder.friendRegister, Register.whole]

theorem EntityDecoder.groupMemberRegister_version (i : ScopedItem) :
    (decoder.groupMemberRegister clock).version i = wrapI64 i.item.version := by
  dsimp only [EntityDecoder.groupMemberRegister, Register.whole]

theorem Codec.groupRegister_version (i : ScopedItem) :
    (codec.groupRegister clock decoder).version i =
      wrapI64 i.item.version := by
  dsimp only [Codec.groupRegister]

theorem userRegister_version
    {touches : ScopedItem → Bool} {input : ScopedItem → UserRow}
    (hinput : ∀ i, (input i).version = wrapI64 i.item.version) (i : ScopedItem) :
    (userRegister τ touches input).version i = wrapI64 i.item.version := by
  rw [← hinput i]
  dsimp only [userRegister]

theorem EntityDecoder.friendRegister_step
    (o : Option FriendRow) (t : τ) (i : ScopedItem) :
    (decoder.friendRegister clock).step o (t, i) =
      upsertVersioned FriendRow.version
        (decoder.friendInput i.item (clock t)).version
        (fun _ => decoder.friendInput i.item (clock t)) o := by
  rw [Register.step_eq_upsertVersioned _ _ _ rfl, decoder.friendInput_version]
  dsimp only [EntityDecoder.friendRegister, Register.whole]

theorem EntityDecoder.groupMemberRegister_step
    (o : Option GroupMemberRow) (t : τ) (i : ScopedItem) :
    (decoder.groupMemberRegister clock).step o (t, i) =
      upsertVersioned GroupMemberRow.version
        (decoder.groupMemberInput i.item (clock t)).version
        (fun _ => decoder.groupMemberInput i.item (clock t)) o := by
  rw [Register.step_eq_upsertVersioned _ _ _ rfl,
    decoder.groupMemberInput_version]
  dsimp only [EntityDecoder.groupMemberRegister, Register.whole]

theorem Codec.groupRegister_step
    (o : Option GroupRow) (t : τ) (i : ScopedItem) :
    (codec.groupRegister clock decoder).step o (t, i) =
      upsertVersioned GroupRow.version
        (codec.groupInput decoder i.item (clock t)).row.version
        (codec.groupInput decoder i.item (clock t)).writtenOver o := by
  rw [Register.step_eq_upsertVersioned _ _ _ rfl, codec.groupInput_version]
  dsimp only [Codec.groupRegister]

theorem userRegister_step
    {touches : ScopedItem → Bool} {input : ScopedItem → UserRow}
    (o : Option UserRow) (t : τ) {i : ScopedItem} (htouch : touches i = true) :
    (userRegister τ touches input).step o (t, i) =
      upsertVersioned UserRow.version (input i).version (input i).writtenOver
        o := by
  rw [Register.step_eq_upsertVersioned _ _ _ htouch]
  dsimp only [userRegister]

theorem userRegister_step_of_not_touches
    {touches : ScopedItem → Bool} {input : ScopedItem → UserRow}
    (o : Option UserRow) (t : τ) {i : ScopedItem} (htouch : touches i = false) :
    (userRegister τ touches input).step o (t, i) = o :=
  if_neg (by rw [show (userRegister τ touches input).touches i = false from
    htouch]; exact Bool.false_ne_true)

end Registers

section RowSteps

variable {τ : Type} (clock : τ → Int) (codec : Codec) (decoder : EntityDecoder)

/-- The item removes the rows of its entity. -/
def ScopedItem.removes (i : ScopedItem) : Bool :=
  i.item.deleted

/-- The row id that an upsert under the key uses. -/
def upsertRowid
    {ρ κ : Type} [Record ρ κ] [DecidableEq κ] (t : Table ρ) (key : κ) : Nat :=
  ((t.lookup key).map Record.rowid).getD t.nextRowid

/-- What an application does to the rows of the entity; `s` holds the row ids. -/
def Codec.rowStep (s : EntityTables) :
    (key : EntityKey) → key.Rows → τ × ScopedItem → key.Rows
  | .friend _, p, a =>
      (withRemoval ScopedItem.removes (decoder.friendRegister clock).step p.1 a,
        if a.2.removes then p.2.map UserRow.withoutUsername
        else (decoder.embeddedUserRegister τ).step p.2 a)
  | .user _, o, a => (codec.userItemRegister τ).step o a
  | .group _, o, a => (codec.groupRegister clock decoder).step o a
  | .groupMember _, o, a =>
      withRemoval ScopedItem.removes (decoder.groupMemberRegister clock).step o a
  | .channelMember _, p, a =>
      (withRemoval ScopedItem.removes
          (fun _ a => some (decoder.channelMemberInput a.2.item (clock a.1)))
          p.1 a,
        (decoder.memberUserRegister τ).step p.2 a)
  | .reaction key, _, a =>
      some ((codec.reactionInput a.2 key.1 (clock a.1)).toRow
        (upsertRowid s.base.messageReaction key))
  | .reminder reminderId, _, a =>
      some { codec.reminderInput a.2.scope a.2.item reminderId with
        id := upsertRowid s.base.reminder reminderId }

end RowSteps

section Projection

variable {τ : Type} {clock : τ → Int} {codec : Codec} {decoder : EntityDecoder}
variable {s₀ s : EntityTables} {t : τ} {i : ScopedItem}

theorem rows_applyFriendItem
    {userId : Nat} (hconcerns : codec.Concerns decoder s₀ i (.friend userId)) :
    (decoder.applyFriendItem i.item (clock t) s).rows (.friend userId) =
      codec.rowStep clock decoder s₀ (.friend userId)
        (s.rows (.friend userId)) (t, i) := by
  obtain ⟨hid, hne⟩ := hconcerns
  unfold EntityDecoder.applyFriendItem
  dsimp only
  rw [hid, if_neg hne]
  dsimp only [Codec.rowStep, EntityTables.rows]
  cases hdeleted : i.item.deleted with
  | true =>
      have hremoves : i.removes = true := hdeleted
      rw [withRemoval_of_removes hdeleted, hremoves, if_pos rfl, if_pos rfl]
      simp only [EntityTables.deleteFriend, Function.update_self]
  | false =>
      have hkeeps : i.removes = false := hdeleted
      rw [withRemoval_of_keeps hdeleted, hkeeps, if_neg Bool.false_ne_true,
        if_neg Bool.false_ne_true, decoder.friendRegister_step]
      unfold EntityDecoder.embeddedUserRegister
      cases hpresent : (decoder.embeddedUser i.item).isPresent with
      | true =>
          rw [if_pos rfl, userRegister_step _ _ hpresent]
          simp only [EntityTables.upsertUser, EntityTables.upsertFriend,
            Function.update_self]
      | false =>
          rw [if_neg Bool.false_ne_true,
            userRegister_step_of_not_touches _ _ hpresent]
          simp only [EntityTables.upsertFriend, Function.update_self]

theorem rows_applyUserItem
    {userId : Nat} (hconcerns : codec.Concerns decoder s₀ i (.user userId)) :
    (codec.applyUserItem i.item s).rows (.user userId) =
      codec.rowStep clock decoder s₀ (.user userId) (s.rows (.user userId))
        (t, i) := by
  obtain ⟨hid, hne⟩ := hconcerns
  unfold Codec.applyUserItem
  rw [hid, if_neg hne]
  dsimp only [Codec.rowStep, EntityTables.rows, Codec.userItemRegister]
  rw [userRegister_step _ _ rfl]
  simp only [EntityTables.upsertUser, Function.update_self]

theorem rows_applyGroupItem
    {groupId : Nat} (hconcerns : codec.Concerns decoder s₀ i (.group groupId)) :
    (codec.applyGroupItem decoder i.item (clock t) s).rows (.group groupId) =
      codec.rowStep clock decoder s₀ (.group groupId) (s.rows (.group groupId))
        (t, i) := by
  obtain ⟨hid, hne⟩ := hconcerns
  unfold Codec.applyGroupItem
  rw [hid, if_neg hne]
  dsimp only [Codec.rowStep, EntityTables.rows]
  rw [codec.groupRegister_step]
  simp only [EntityTables.upsertGroup, Function.update_self]

theorem rows_applyGroupMemberItem
    {ids : Nat × Nat} (hconcerns : codec.Concerns decoder s₀ i (.groupMember ids)) :
    (decoder.applyGroupMemberItem i.scope i.item (clock t) s).rows
        (.groupMember ids) =
      codec.rowStep clock decoder s₀ (.groupMember ids)
        (s.rows (.groupMember ids)) (t, i) := by
  obtain ⟨hids, hgroup, huser⟩ := hconcerns
  unfold EntityDecoder.applyGroupMemberItem
  dsimp only
  rw [hids, if_neg (not_or.mpr ⟨hgroup, huser⟩)]
  dsimp only [Codec.rowStep, EntityTables.rows]
  cases hdeleted : i.item.deleted with
  | true =>
      rw [withRemoval_of_removes hdeleted, if_pos rfl]
      simp only [EntityTables.deleteGroupMember, Function.update_self]
  | false =>
      rw [withRemoval_of_keeps hdeleted, if_neg Bool.false_ne_true,
        decoder.groupMemberRegister_step]
      simp only [EntityTables.upsertGroupMember, Function.update_self]

theorem rows_applyChannelMemberItem
    {ids : Nat × Int × Nat}
    (hconcerns : codec.Concerns decoder s₀ i (.channelMember ids)) :
    (decoder.applyChannelMemberItem i.item (clock t) s).rows
        (.channelMember ids) =
      codec.rowStep clock decoder s₀ (.channelMember ids)
        (s.rows (.channelMember ids)) (t, i) := by
  obtain ⟨hids, htype, hchannel, huser⟩ := hconcerns
  unfold EntityDecoder.applyChannelMemberItem
  dsimp only
  rw [hids, if_neg (not_or.mpr ⟨hchannel, huser⟩), htype]
  dsimp only [Codec.rowStep, EntityTables.rows, EntityDecoder.memberUserRegister]
  cases hdeleted : i.item.deleted with
  | true =>
      rw [withRemoval_of_removes hdeleted, if_pos rfl,
        userRegister_step_of_not_touches _ _ (by simp [hdeleted])]
      simp only [EntityTables.deleteChannelMember, Function.update_self]
  | false =>
      rw [withRemoval_of_keeps hdeleted, if_neg Bool.false_ne_true]
      cases hhydrates : decoder.hydratesUser i.item with
      | true =>
          rw [if_pos rfl,
            userRegister_step _ _ (by simp [hdeleted, hhydrates])]
          simp only [EntityTables.upsertUser, EntityTables.upsertChannelMember,
            Function.update_self]
      | false =>
          rw [if_neg Bool.false_ne_true,
            userRegister_step_of_not_touches _ _ (by simp [hhydrates])]
          simp only [EntityTables.upsertChannelMember, Function.update_self]

section Upserts

variable {ρ κ : Type} [Record ρ κ] [DecidableEq κ]

/-- The row that is there gives the row id of the next upsert. -/
theorem upsertRowid_of_lookup
    {table : Table ρ} {key : κ} {r : ρ} (hr : table.lookup key = some r) :
    upsertRowid table key = Record.rowid r := by
  rw [upsertRowid, hr, Option.map_some, Option.getD_some]

/-- An upsert whose columns are all replaced leaves one row, up to its row id. -/
theorem lookup_upsert_overwrite
    (table : Table ρ) (key : κ) (mk : Nat → ρ) (f : ρ → ρ)
    (hmk : ∀ n, Record.rowid (mk n) = n)
    (hmkKeys : ∀ n, Record.keys (mk n) = [key])
    (hid : ∀ r, Record.rowid (f r) = Record.rowid r)
    (hkeys : ∀ r, Record.keys (f r) = Record.keys r)
    (hover : ∀ r, key ∈ Record.keys r → f r = mk (Record.rowid r)) :
    (table.upsert key mk f hmk hmkKeys hid hkeys).lookup key =
      some (mk (upsertRowid table key)) := by
  unfold upsertRowid
  rw [Table.lookup_upsert_self]
  cases hl : table.lookup key with
  | none => rfl
  | some r =>
      rw [Option.map_some, Option.getD_some, Option.map_some, Option.getD_some,
        hover r ((table.lookup_eq_some_iff key r).mp hl).2]

end Upserts

/-- The store after a reaction item that is not skipped. -/
theorem applyReactionItem_after
    {base : Store} {key : Nat × Nat × String}
    (hkey : codec.reactionItemKey base i = some key) (now : Int) :
    (codec.applyReactionItem i.scope i.item).after (.calm now) base =
        { base with
          messageReaction := (upsertedReaction base.messageReaction
            (codec.reactionInput i key.1 now)) } ∧
      key.2 = codec.reactionKey i.item := by
  unfold Codec.reactionItemKey at hkey
  dsimp only at hkey
  split at hkey
  · cases hkey
  · rename_i hskip
    cases hkey
    simp only [not_or] at hskip
    obtain ⟨hraw, hchannel, hmessage, huser, hemoji⟩ := hskip
    refine ⟨?_, rfl⟩
    dsimp only [Codec.reactionKey] at huser hemoji
    unfold Exec.after Codec.applyReactionItem
    rw [Exec.bind_run, if_pos (Nat.pos_of_ne_zero hraw),
      resolveMessageId_calm (Nat.pos_of_ne_zero hchannel)]
    dsimp only
    rw [if_neg (not_or.mpr ⟨hmessage, not_or.mpr ⟨hchannel,
      not_or.mpr ⟨huser, hemoji⟩⟩⟩), nowMs_bind]
    unfold upsertMessageReaction
    rw [exec_calm]
    rfl

theorem applyReactionItem_lookup
    {base : Store} {key : Nat × Nat × String}
    (hkey : codec.reactionItemKey base i = some key) (now : Int) :
    ((codec.applyReactionItem i.scope i.item).after (.calm now)
        base).messageReaction.lookup key =
      some ((codec.reactionInput i key.1 now).toRow
        (upsertRowid base.messageReaction key)) := by
  obtain ⟨hafter, hrest⟩ := applyReactionItem_after hkey now
  obtain ⟨messageId, rest⟩ := key
  subst hrest
  rw [hafter]
  refine lookup_upsert_overwrite base.messageReaction
    (messageId, codec.reactionKey i.item)
    (codec.reactionInput i messageId now).toRow
    (codec.reactionInput i messageId now).overwrite
    (fun _ => rfl) (fun _ => rfl) (fun _ => rfl) (fun _ => rfl) ?_
  intro r hr
  have heq : (messageId, codec.reactionKey i.item) =
      (r.messageId, r.uid, r.emoji) := List.mem_singleton.mp hr
  have hmessage : messageId = r.messageId := congrArg Prod.fst heq
  have hrest : codec.reactionKey i.item = (r.uid, r.emoji) :=
    congrArg Prod.snd heq
  simp only [UpsertMessageReactionInput.overwrite,
    UpsertMessageReactionInput.toRow, Codec.reactionInput, hmessage, hrest]
  rfl

theorem upsertReminder_lookup
    (base : Store) (input : ReminderRow) :
    (base.reminder.upsert input.reminderId (fun n => { input with id := n })
        (fun r => { input with id := r.id, reminderId := r.reminderId })
        (fun _ => rfl) (fun _ => rfl) (fun _ => rfl)
        (fun _ => rfl)).lookup input.reminderId =
      some { input with id := upsertRowid base.reminder input.reminderId } := by
  refine lookup_upsert_overwrite base.reminder input.reminderId
    (fun n => { input with id := n })
    (fun r => { input with id := r.id, reminderId := r.reminderId })
    (fun _ => rfl) (fun _ => rfl) (fun _ => rfl) (fun _ => rfl) ?_
  intro r hr
  rw [← show input.reminderId = r.reminderId from List.mem_singleton.mp hr]
  rfl

/-- Marking a reminder done that is done changes nothing. -/
theorem lookup_modify_done
    {table : Table ReminderRow} {reminderId : Nat} {r : ReminderRow}
    (hr : table.lookup reminderId = some r) (hdone : r.done = true)
    (hid : ∀ r : ReminderRow, Record.rowid { r with done := true } =
      Record.rowid r)
    (hkeys : ∀ r : ReminderRow, Record.keys { r with done := true } =
      Record.keys r) :
    (table.modify (fun r => r.reminderId == reminderId)
        (fun r => { r with done := true }) hid hkeys).lookup reminderId =
      some r := by
  rw [Table.lookup_modify, hr, Option.map_some]
  split
  · rw [← hdone]
  · rfl

theorem applyReminderItem_lookup
    {base : Store} {reminderId : Nat}
    (hid : itemReminderId i.item = reminderId) (hne : reminderId ≠ 0)
    (now : Int) :
    ((codec.applyReminderItem i.scope i.item).after (.calm now)
        base).reminder.lookup reminderId =
      some { codec.reminderInput i.scope i.item reminderId with
        id := upsertRowid base.reminder reminderId } := by
  have hupsert := upsertReminder_lookup base
    (codec.reminderInput i.scope i.item reminderId)
  unfold Exec.after Codec.applyReminderItem
  rw [hid, if_neg hne, Exec.bind_run]
  unfold upsertReminder
  rw [exec_calm]
  dsimp only
  cases hdeleted : i.item.deleted with
  | false => exact hupsert
  | true =>
      rw [if_pos rfl]
      unfold markReminderDone
      rw [Exec.attempt_bind, exec_calm]
      -- the row was written as done, so marking it done changes nothing
      refine lookup_modify_done hupsert ?_ (fun _ => rfl) (fun _ => rfl)
      simp [Codec.reminderInput, hdeleted]

/-- What the items of a reaction or a reminder do not change. -/
def EntityKey.Frame (s₀ s : EntityTables) : EntityKey → Prop
  | .reaction key =>
      s.base.message = s₀.base.message ∧
        upsertRowid s.base.messageReaction key =
          upsertRowid s₀.base.messageReaction key
  | .reminder reminderId =>
      upsertRowid s.base.reminder reminderId =
        upsertRowid s₀.base.reminder reminderId
  | _ => True

theorem EntityKey.frame_refl (s : EntityTables) (key : EntityKey) :
    key.Frame s s := by
  cases key <;> simp [EntityKey.Frame]

theorem reactionItemKey_congr
    {base base' : Store} (h : base.message = base'.message) (i : ScopedItem) :
    codec.reactionItemKey base i = codec.reactionItemKey base' i := by
  unfold Codec.reactionItemKey Store.linkTarget
  rw [h]

/-- The rows of the entity after an item are the row step of its rows. -/
theorem rows_applyEntityItem
    {key : EntityKey} (hframe : key.Frame s₀ s)
    (hconcerns : codec.Concerns decoder s₀ i key) :
    key.Frame s₀
        (codec.applyEntityItem decoder key.entityType (clock t) i s) ∧
      (codec.applyEntityItem decoder key.entityType (clock t) i s).rows key =
        codec.rowStep clock decoder s₀ key (s.rows key) (t, i) := by
  cases key with
  | friend userId => exact ⟨trivial, rows_applyFriendItem hconcerns⟩
  | user userId => exact ⟨trivial, rows_applyUserItem hconcerns⟩
  | group groupId => exact ⟨trivial, rows_applyGroupItem hconcerns⟩
  | groupMember ids => exact ⟨trivial, rows_applyGroupMemberItem hconcerns⟩
  | channelMember ids => exact ⟨trivial, rows_applyChannelMemberItem hconcerns⟩
  | reaction key =>
      obtain ⟨hmessage, hrowid⟩ := hframe
      have hkey : codec.reactionItemKey s.base i = some key :=
        (reactionItemKey_congr hmessage i).trans hconcerns
      have hlookup := applyReactionItem_lookup hkey (clock t)
      rw [hrowid] at hlookup
      have hafter : ((codec.applyReactionItem i.scope i.item).after
          (.calm (clock t)) s.base).message = s.base.message := by
        rw [(applyReactionItem_after hkey (clock t)).1]
      exact ⟨⟨hafter.trans hmessage, upsertRowid_of_lookup hlookup⟩, hlookup⟩
  | reminder reminderId =>
      obtain ⟨hid, hne⟩ := hconcerns
      have hrowid : upsertRowid s.base.reminder reminderId =
          upsertRowid s₀.base.reminder reminderId := hframe
      have hlookup : ((codec.applyReminderItem i.scope i.item).after
          (.calm (clock t)) s.base).reminder.lookup reminderId = _ :=
        applyReminderItem_lookup hid hne (clock t)
      rw [hrowid] at hlookup
      exact ⟨upsertRowid_of_lookup hlookup, hlookup⟩

end Projection

section Batches

variable {τ : Type} {clock : τ → Int} {codec : Codec} {decoder : EntityDecoder}

/-- The items of the batches with their moments, in the order they are applied. -/
def applications (batches : List (EntityBatch τ)) : List (τ × ScopedItem) :=
  batches.flatMap (fun b => b.items.map (fun item => (b.moment, ⟨b.scope, item⟩)))

/-- Each application as a batch of its own. -/
def singleBatches (r : List (τ × ScopedItem)) : List (EntityBatch τ) :=
  r.map (fun a => ⟨a.1, a.2.scope, [a.2.item]⟩)

theorem applications_singleBatches (r : List (τ × ScopedItem)) :
    applications (singleBatches r) = r := by
  unfold applications singleBatches
  rw [List.flatMap_map]
  simp

/-- Batches are only a way to write down the applications. -/
theorem run_applySyncEntities
    (entityType : EntityType) (s : EntityTables)
    (batches : List (EntityBatch τ)) :
    run (codec.applySyncEntities decoder clock entityType) s batches =
      run (fun s a => codec.applyEntityItem decoder entityType (clock a.1) a.2 s)
        s (applications batches) := by
  induction batches generalizing s with
  | nil => rfl
  | cons b batches ih =>
      have hbatch : codec.applySyncEntities decoder clock entityType s b =
          run (fun s a => codec.applyEntityItem decoder entityType (clock a.1)
            a.2 s) s (b.items.map (fun item => (b.moment, ⟨b.scope, item⟩))) := by
        unfold Codec.applySyncEntities
        generalize b.items = items
        induction items generalizing s with
        | nil => rfl
        | cons item items ihitems => exact ihitems _
      rw [run_cons, ih, hbatch, ← run_append]
      rfl

/-- The rows of the entity after the batches, from its rows before. -/
theorem rows_applySyncEntities
    (s : EntityTables) {key : EntityKey} {batches : List (EntityBatch τ)}
    (hconcerns : ∀ a ∈ applications batches,
      codec.Concerns decoder s a.2 key) :
    (run (codec.applySyncEntities decoder clock key.entityType) s
        batches).rows key =
      run (codec.rowStep clock decoder s key) (s.rows key)
        (applications batches) := by
  rw [run_applySyncEntities]
  refine (run_related (fun s' rows => key.Frame s s' ∧ s'.rows key = rows)
    (fun a => codec.Concerns decoder s a.2 key) ?_
    ⟨key.frame_refl s, rfl⟩ hconcerns).2
  rintro s' _ ⟨t, i⟩ hi ⟨hframe, rfl⟩
  exact rows_applyEntityItem hframe hi

end Batches

section Condition

variable {τ : Type} (clock : τ → Int) (codec : Codec) (decoder : EntityDecoder)

/-- Either all items remove or none does and `rest` holds. -/
def RemovesAllOr (items : List ScopedItem) (rest : Prop) : Prop :=
  (∀ i ∈ items, i.removes = true) ∨
    ((∀ i ∈ items, i.removes = false) ∧ rest)

/--
When the order of the items does not matter, by the kind of entity.  The newest
item that is not older than the row decides the row of a register; reactions,
reminders and channel members have no such guard, so all items must write the same.
-/
def Codec.OrderCondition
    (s : EntityTables) (items : List ScopedItem) : EntityKey → Prop
  | .friend userId =>
      RemovesAllOr items
        ((decoder.friendRegister clock).Determined (s.friend userId) items ∧
          (decoder.embeddedUserRegister τ).Determined (s.user userId) items)
  | .user userId => (codec.userItemRegister τ).Determined (s.user userId) items
  | .group groupId =>
      (codec.groupRegister clock decoder).Determined (s.group groupId) items
  | .groupMember ids =>
      RemovesAllOr items
        ((decoder.groupMemberRegister clock).Determined (s.groupMember ids) items)
  | .channelMember ids =>
      RemovesAllOr items
          (∀ i ∈ items, ∀ j ∈ items, ∀ t t',
            decoder.channelMemberInput i.item (clock t) =
              decoder.channelMemberInput j.item (clock t')) ∧
        (decoder.memberUserRegister τ).Determined (s.user ids.2.2) items
  | .reaction key =>
      ∀ i ∈ items, ∀ j ∈ items, ∀ t t',
        codec.reactionInput i key.1 (clock t) =
          codec.reactionInput j key.1 (clock t')
  | .reminder reminderId =>
      ∀ i ∈ items, ∀ j ∈ items,
        codec.reminderInput i.scope i.item reminderId =
          codec.reminderInput j.scope j.item reminderId

end Condition

section Convergence

variable {τ : Type} [Nonempty τ] {clock : τ → Int}
variable {codec : Codec} {decoder : EntityDecoder}
variable {s : EntityTables} {items : List ScopedItem}

/-- A version of the wire is found again in its column. -/
theorem wrapI64_inj
    {n m : Nat} (hn : n < 2 ^ 64) (hm : m < 2 ^ 64)
    (h : wrapI64 n = wrapI64 m) : n = m := by
  have hcast : ((2 ^ 64 : Nat) : Int) = 18446744073709551616 := rfl
  unfold wrapI64 Int.bmod at h
  rw [hcast] at h
  dsimp only at h
  split at h <;> split at h <;> omega

/-- The items have versions of the wire, each its own. -/
def DistinctVersions (items : List ScopedItem) : Prop :=
  (∀ i ∈ items, i.item.version < 2 ^ 64) ∧
    ∀ i ∈ items, ∀ j ∈ items, i.item.version = j.item.version → i = j

theorem DistinctVersions.of_wrapped
    (h : DistinctVersions items) {version : ScopedItem → Int}
    (hversion : ∀ i, version i = wrapI64 i.item.version) :
    ∀ i ∈ items, ∀ j ∈ items, version i = version j → i = j := by
  intro i hi j hj heq
  rw [hversion, hversion] at heq
  exact h.2 i hi j hj (wrapI64_inj (h.1 i hi) (h.1 j hj) heq)

theorem converges_friend_iff
    (h : DistinctVersions items) (userId : Nat) :
    Converges (codec.rowStep clock decoder s (.friend userId))
        (s.rows (.friend userId)) items ↔
      codec.OrderCondition clock decoder s items (.friend userId) := by
  refine (converges_pair_iff
    (withRemoval ScopedItem.removes (decoder.friendRegister clock).step)
    (fun o a => if a.2.removes then o.map UserRow.withoutUsername
      else (decoder.embeddedUserRegister τ).step o a)
    (s.friend userId) (s.user userId) items).trans ?_
  rw [converges_withRemoval_iff (fun o a => Register.isSome_step rfl o a.1),
    Register.converges_iff _ _ _
      (h.of_wrapped decoder.friendRegister_version)]
  have huser := Register.converges_iff (decoder.embeddedUserRegister τ)
    (s.user userId) items (h.of_wrapped (userRegister_version
      (fun i => decoder.embeddedUserInput_version i.item)))
  constructor
  · rintro ⟨hall | ⟨hnone, hfriend⟩, hrest⟩
    · exact Or.inl hall
    · refine Or.inr ⟨hnone, hfriend, huser.mp ((converges_congr ?_ _).mp hrest)⟩
      intro o t i hi
      exact if_neg (by simp [hnone i hi])
  · rintro (hall | ⟨hnone, hfriend, hdetermined⟩)
    · refine ⟨Or.inl hall, (converges_congr ?_ _).mpr (converges_of_idempotent
        (f := fun o => o.map UserRow.withoutUsername) ?_ _ items)⟩
      · intro o t i hi
        exact if_pos (hall i hi)
      · intro o
        cases o <;> rfl
    · refine ⟨Or.inr ⟨hnone, hfriend⟩,
        (converges_congr ?_ _).mpr (huser.mpr hdetermined)⟩
      intro o t i hi
      exact if_neg (by simp [hnone i hi])

theorem converges_channelMember_iff
    (h : DistinctVersions items) (ids : Nat × Int × Nat) :
    Converges (codec.rowStep clock decoder s (.channelMember ids))
        (s.rows (.channelMember ids)) items ↔
      codec.OrderCondition clock decoder s items (.channelMember ids) := by
  refine (converges_pair_iff
    (withRemoval ScopedItem.removes
      (fun _ a => some (decoder.channelMemberInput a.2.item (clock a.1))))
    (decoder.memberUserRegister τ).step
    (s.channelMember ids) (s.user ids.2.2) items).trans ?_
  have huser := Register.converges_iff (decoder.memberUserRegister τ)
    (s.user ids.2.2) items (h.of_wrapped (userRegister_version
      (fun i => decoder.memberUserInput_version i.item)))
  rw [converges_withRemoval_iff (fun _ _ => rfl), converges_overwrite_iff, huser]
  simp only [Option.some.injEq]
  rfl

/-- A reaction row shows everything that its item writes. -/
theorem toRow_inj
    {i j : ScopedItem} {messageId n : Nat} {now now' : Int}
    (h : (codec.reactionInput i messageId now).toRow n =
      (codec.reactionInput j messageId now').toRow n) :
    codec.reactionInput i messageId now = codec.reactionInput j messageId now' := by
  generalize codec.reactionInput i messageId now = x at h ⊢
  generalize codec.reactionInput j messageId now' = y at h ⊢
  cases x
  cases y
  simpa [UpsertMessageReactionInput.toRow, and_comm, and_left_comm] using h

/-- The rows converge exactly if the condition of their kind holds. -/
theorem converges_rowStep_iff
    (h : DistinctVersions items) (key : EntityKey) :
    Converges (codec.rowStep clock decoder s key) (s.rows key) items ↔
      codec.OrderCondition clock decoder s items key := by
  cases key with
  | friend userId => exact converges_friend_iff h userId
  | user userId =>
      exact Register.converges_iff _ _ _ (h.of_wrapped (userRegister_version
        (fun i => codec.userInput_version i.item)))
  | group groupId =>
      exact Register.converges_iff _ _ _
        (h.of_wrapped codec.groupRegister_version)
  | groupMember ids =>
      refine (converges_withRemoval_iff
        (fun o a => Register.isSome_step rfl o a.1) _ _).trans ?_
      rw [Register.converges_iff _ _ _
        (h.of_wrapped decoder.groupMemberRegister_version)]
      rfl
  | channelMember ids => exact converges_channelMember_iff h ids
  | reaction key =>
      refine (converges_overwrite_iff _ _ _).trans ?_
      simp only [Option.some.injEq]
      refine ⟨fun hall i hi j hj t t' => toRow_inj (hall i hi j hj t t'), ?_⟩
      intro hall i hi j hj t t'
      rw [hall i hi j hj t t']
  | reminder reminderId =>
      refine (converges_overwrite_iff _ _ _).trans ?_
      simp only [Option.some.injEq]
      constructor
      · intro hall i hi j hj
        have t : τ := Classical.arbitrary τ
        exact congrArg (fun r : ReminderRow => { r with id := 0 })
          (hall i hi j hj t t)
      · intro hall i hi j hj _ _
        rw [hall i hi j hj]

end Convergence

section AnyOrder

variable {τ : Type} (clock : τ → Int) (codec : Codec) (decoder : EntityDecoder)

/--
In any order, with repeats and in any batches, the items leave the same rows as in
version order.
-/
def Codec.OrderFree
    (s : EntityTables) (key : EntityKey) (items : List ScopedItem) : Prop :=
  ∀ batches ordered : List (EntityBatch τ),
    Covers items (applications batches) →
      InOrder (fun i => i.item.version) items (applications ordered) →
        (run (codec.applySyncEntities decoder clock key.entityType) s
            batches).rows key =
          (run (codec.applySyncEntities decoder clock key.entityType) s
            ordered).rows key

/-- The order of the items does not matter exactly under the condition of their kind. -/
theorem any_order_iff_orderCondition
    [Nonempty τ] (s : EntityTables) (key : EntityKey) (items : List ScopedItem)
    (hversions : DistinctVersions items)
    (hconcerns : ∀ i ∈ items, codec.Concerns decoder s i key) :
    codec.OrderFree clock decoder s key items ↔
      codec.OrderCondition clock decoder s items key := by
  have hrows : ∀ batches : List (EntityBatch τ),
      Covers items (applications batches) →
        (run (codec.applySyncEntities decoder clock key.entityType) s
            batches).rows key =
          run (codec.rowStep clock decoder s key) (s.rows key)
            (applications batches) :=
    fun batches h => rows_applySyncEntities s
      (fun a ha => hconcerns a.2 (h.mem ha))
  rw [← converges_rowStep_iff hversions, converges_iff_inOrder hversions.2]
  constructor
  · intro h r r₀ hr hr₀
    have hend := h (singleBatches r) (singleBatches r₀)
    rw [hrows, hrows, applications_singleBatches,
      applications_singleBatches] at hend
    · exact hend hr hr₀
    · rw [applications_singleBatches]
      exact hr₀.1
    · rw [applications_singleBatches]
      exact hr
  · intro h batches ordered hbatches hordered
    rw [hrows batches hbatches, hrows ordered hordered.1]
    exact h _ _ hbatches hordered

end AnyOrder

section Sample

/-- A decoder for payloads without fields. -/
def sampleDecoder : EntityDecoder where
  friend _ := {}
  group _ := {}
  groupMember _ := {}
  channelMember _ := {}
  wireRole role := if role = 1 ∨ role = 2 then role else 0

/-- An item of friend 7 without a payload. -/
def friendItem (version : Nat) (deleted : Bool) : ScopedItem where
  scope := none
  item :=
    { entityId := "7", version := version, deleted := deleted, payload := none }

theorem friendItem_concerns (version : Nat) (deleted : Bool) :
    sampleCodec.Concerns sampleDecoder (.empty .empty)
      (friendItem version deleted) (.friend 7) := by
  have hparse : parseEntityIdU64 "7" = some 7 := by decide +kernel
  refine ⟨?_, by decide⟩
  simp [EntityDecoder.friendUserId, sampleDecoder, friendItem, hparse]

/-- The first two items of friend 7. -/
def friendItems (deleted : Bool) : List ScopedItem :=
  [friendItem 1 false, friendItem 2 deleted]

theorem friendItems_concern (deleted : Bool) :
    DistinctVersions (friendItems deleted) ∧
      ∀ i ∈ friendItems deleted,
        sampleCodec.Concerns sampleDecoder (.empty .empty) i (.friend 7) := by
  refine ⟨⟨?_, ?_⟩, ?_⟩
  · intro i hi
    simp only [friendItems, List.mem_cons, List.not_mem_nil, or_false] at hi
    rcases hi with rfl | rfl <;> simp [friendItem]
  · intro i hi j hj heq
    simp only [friendItems, List.mem_cons, List.not_mem_nil, or_false] at hi hj
    rcases hi with rfl | rfl <;> rcases hj with rfl | rfl
    · rfl
    · cases heq
    · cases heq
    · rfl
  · intro i hi
    simp only [friendItems, List.mem_cons, List.not_mem_nil, or_false] at hi
    rcases hi with rfl | rfl <;> exact friendItem_concerns _ _

/-- A deletion in a batch that comes before an older upsert of the friend. -/
theorem older_upsert_revives_friend :
    (DistinctVersions (friendItems true) ∧
      ∀ i ∈ friendItems true,
        sampleCodec.Concerns sampleDecoder (.empty .empty) i (.friend 7)) ∧
      ¬ sampleCodec.OrderFree (fun _ : Unit => 0) sampleDecoder (.empty .empty)
        (.friend 7) (friendItems true) := by
  refine ⟨friendItems_concern true, ?_⟩
  intro h
  have hend := h
    (singleBatches [((), friendItem 2 true), ((), friendItem 1 false)])
    (singleBatches [((), friendItem 1 false), ((), friendItem 2 true)])
    (by
      rw [applications_singleBatches]
      intro i
      simp [friendItems, or_comm])
    (by
      rw [applications_singleBatches]
      exact ⟨fun i => by simp [friendItems], by decide⟩)
  exact absurd (congrArg (fun p => p.1.isSome) hend) (by decide +kernel)

/-- Two upserts of a friend, at any times of the clock. -/
theorem two_friend_upserts_in_any_order :
    sampleCodec.OrderFree id sampleDecoder (.empty .empty) (.friend 7)
        (friendItems false) ↔
      sampleCodec.OrderCondition id sampleDecoder (.empty .empty)
        (friendItems false) (.friend 7) :=
  any_order_iff_orderCondition id sampleCodec sampleDecoder (.empty .empty)
    (.friend 7) (friendItems false) (friendItems_concern false).1
    (friendItems_concern false).2

end Sample

end PrivchatSdk
