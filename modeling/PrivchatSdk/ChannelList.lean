import Mathlib.Data.List.AList
import Mathlib.Data.List.Sort
import PrivchatSdk.ReadCursor

/-!
# The rows of table `channel`

`ReadState` holds one channel of an account with the columns that its unread
count depends on.  Here is the account with all its channels and the columns that
a row is shown with: what a query resolves from other tables, what `upsert_channel`
writes, and the two functions that write a row back after reading it.

`view_updateChannelLastMessage` connects the two: on the columns of `ReadState`,
an update of the account is the update of that channel.
-/

namespace PrivchatSdk.Channels

section Rows

/-- A row of table `channel`, but for its key. -/
structure ChannelRecord extends ChannelRow where
  channelType : Int
  channelName : String
  channelRemark : String
  avatar : String
  top : Int
  mute : Int
  peerUserId : Option Nat
  deriving DecidableEq, Repr

/-- The names of a row of table `user`. -/
structure UserNames where
  aliasName : String
  nickname : String
  username : String
  deriving DecidableEq, Repr

/-- The columns of table `group_member` that a group is named after. -/
structure GroupMember where
  userId : Nat
  aliasName : String
  role : Int
  status : Int
  joinedAt : Int
  deriving DecidableEq, Repr

/-- The account database. -/
structure Account where
  uid : Nat
  base : Store
  user : Nat → Option UserNames
  groupName : Nat → Option String
  groupMember : Nat → List GroupMember
  channel : AList (fun _ : Nat => ChannelRecord)
  channelExtra : Nat → Int → Option ChannelExtraRow

/-- The part of the account that the unread count of one channel depends on. -/
def Account.view (a : Account) (channelId : Nat) (channelType : Int) : ReadState where
  uid := a.uid
  channelId := channelId
  channelType := channelType
  base := a.base
  channel := (a.channel.lookup channelId).map (fun c => c.toChannelRow)
  channelExtra := a.channelExtra channelId channelType

end Rows

section Names

/-- `NULLIF(s, '')`. -/
def nullifEmpty (s : String) : Option String :=
  if s = "" then none else some s

/-- `s GLOB '[0-9]*'`. -/
def startsWithDigit (s : String) : Bool :=
  s.toList.head?.any (fun c => c.isDigit)

/-- `CAST(s AS INTEGER)` of a text that starts with a digit. -/
def castInteger (s : String) : Nat :=
  min
    ((s.toList.takeWhile (fun c => c.isDigit)).foldl
      (fun n c => 10 * n + (c.toNat - '0'.toNat)) 0)
    (2 ^ 63 - 1)

/-- The peer that old versions wrote into the name. -/
def legacyPeer (channelName : String) : Option Nat :=
  if startsWithDigit channelName then some (castInteger channelName) else none

/-- The peer of a direct channel. -/
def ChannelRecord.peer (c : ChannelRecord) : Option Nat :=
  if c.channelType = 1 then c.peerUserId.or (legacyPeer c.channelName) else none

/-- The first name of the user that is not empty. -/
def UserNames.display (u : UserNames) : Option String :=
  ((nullifEmpty u.aliasName).or (nullifEmpty u.nickname)).or (nullifEmpty u.username)

/-- The stored name of a direct channel, unless it is a user id. -/
def ownName (channelName : String) : Option String :=
  if channelName = "1" ∨ channelName = "__system_1__" then none
  else if startsWithDigit channelName then none
  else nullifEmpty channelName

/-- The name that a member lends to the group. -/
def Account.namePart (a : Account) (m : GroupMember) : String :=
  ((nullifEmpty m.aliasName).or ((a.user m.userId).bind (fun u => u.display))).getD
    (toString m.userId)

/-- `ORDER BY gm.role ASC, gm.joined_at ASC, gm.user_id ASC`. -/
def memberBefore (x y : GroupMember) : Bool :=
  if x.role ≠ y.role then decide (x.role < y.role)
  else if x.joinedAt ≠ y.joinedAt then decide (x.joinedAt < y.joinedAt)
  else decide (x.userId ≤ y.userId)

/-- The first three active members of the group. -/
def Account.memberNames (a : Account) (groupId : Nat) : Option String :=
  let active := (a.groupMember groupId).filter (fun m => m.status == 0)
  nullifEmpty ("、".intercalate
    (((active.insertionSort (fun x y => memberBefore x y = true)).take 3).map
      a.namePart))

/-- `resolved_channel_name`. -/
def Account.resolvedName
    (a : Account) (channelId : Nat) (c : ChannelRecord) : String :=
  if c.channelType = 1 then
    (((c.peer.bind a.user).bind (fun u => u.display)).or
      (ownName c.channelName)).getD ""
  else if c.channelType = 2 then
    ((((a.groupName channelId).bind nullifEmpty).or
      (nullifEmpty c.channelName)).or (a.memberNames channelId)).getD
        (toString channelId)
  else
    c.channelName

end Names

section Queries

variable (a : Account) (channelId : Nat)

/-- The count that a row is read with. -/
def Account.unread (c : ChannelRecord) : Int :=
  (a.view channelId c.channelType).resolveChannelUnreadOnRead c.unreadCount

/-- `resolved_last_msg_timestamp`. -/
def Account.lastTimestamp (c : ChannelRecord) : Int :=
  ((a.view channelId c.channelType).previewRow.map (fun r => r.createdAt)).getD
    c.lastMsgTimestamp

/-- The `WHERE` of `list_channels`: a direct channel without messages is left out. -/
def Account.listed (c : ChannelRecord) : Bool :=
  !c.isDeleted && (c.channelType != 1 || decide (0 < a.lastTimestamp channelId c))

/-- `get_channel_by_id`: names and peer resolved, unless the row is hidden. -/
def Account.getChannelById : Option ChannelRecord :=
  match a.channel.lookup channelId with
  | none => none
  | some c =>
      match (a.view channelId c.channelType).getChannelById with
      | none => none
      | some row =>
          some
            { c with
              toChannelRow := row
              channelName := a.resolvedName channelId c
              peerUserId := c.peer }

/-- The write of `resolve_channel_unread_on_read` to a row that was read. -/
def Account.healed (c : ChannelRecord) : Account :=
  if a.unread channelId c = max 0 c.unreadCount then
    a
  else
    { a with
      channel := a.channel.insert channelId
        { c with unreadCount := a.unread channelId c } }

/-- The account after `get_channel_by_id`. -/
def Account.afterRead : Account :=
  match a.channel.lookup channelId with
  | none => a
  | some c => if c.isDeleted then a else a.healed channelId c

end Queries

section Writes

/-- The conflict branch of `upsert_channel`. -/
def ChannelRecord.overwrite (c input : ChannelRecord) : ChannelRecord :=
  if c.version ≤ input.version then
    { input with
      peerUserId := input.peerUserId.or c.peerUserId
      isDeleted :=
        if c.lastMsgTimestamp < input.lastMsgTimestamp then false
        else c.isDeleted }
  else
    c

/-- `upsert_channel`. -/
def Account.upsertChannel
    (a : Account) (channelId : Nat) (input : ChannelRecord) : Account :=
  { a with
    channel := a.channel.insert channelId
      (match a.channel.lookup channelId with
        | none => input
        | some c => c.overwrite input) }

/-- The peer that a message tells of a direct channel without row. -/
def inferredPeer (uid : Nat) (channelType : Int) (fromUid : Option Nat) :
    Option Nat :=
  if channelType = 1 then
    fromUid.filter (fun sender => decide (0 < sender) && sender != uid)
  else
    none

/-- The row that a message creates: the names come with other entities. -/
def freshChannel (channelType : Int) : ChannelRecord where
  unreadCount := 0
  lastMsgTimestamp := 0
  lastLocalMessageId := 0
  lastMsgContent := ""
  version := 0
  isDeleted := false
  channelType := channelType
  channelName := ""
  channelRemark := ""
  avatar := ""
  top := 0
  mute := 0
  peerUserId := none

/-- `update_channel_last_message`. -/
def Account.updateChannelLastMessage
    (a : Account) (channelId : Nat) (channelType : Int) (content : String)
    (timestampMs : Int) (messageId : Nat) (fromUid : Option Nat)
    (bumpUnread : Bool) : Account :=
  let existing := a.getChannelById channelId
  let a' := a.afterRead channelId
  let c := existing.getD (freshChannel channelType)
  let takes :=
    (a'.view channelId channelType).previewShouldUpdate c.lastLocalMessageId messageId
  a'.upsertChannel channelId
    { c with
      channelType := channelType
      unreadCount := if bumpUnread then saturatingSucc c.unreadCount else c.unreadCount
      lastMsgTimestamp := if takes then timestampMs else c.lastMsgTimestamp
      lastLocalMessageId := if takes then messageId else c.lastLocalMessageId
      lastMsgContent := if takes then content else c.lastMsgContent
      isDeleted := false
      -- the stored peer stays, only a row without peer takes this one
      peerUserId :=
        if existing.isSome then none else inferredPeer a.uid channelType fromUid }

/-- `count_materialized_unread`. -/
def Account.countMaterializedUnread
    (a : Account) (channelId : Nat) (channelType : Int) : Nat :=
  let s := a.view channelId channelType
  s.unreadBeyond s.keepPts

/-- `reconcile_channel_unread_after_difference`. -/
def Account.reconcileChannelUnreadAfterDifference
    (a : Account) (channelId : Nat) (channelType : Int) : Account :=
  match a.getChannelById channelId with
  | none => a.afterRead channelId
  | some c =>
      let a' := a.afterRead channelId
      match a'.channelExtra channelId channelType with
      | none => a'
      | some extra =>
          let maxPts := (a'.view channelId channelType).maxPts
          if maxPts = 0 ∨ (extra.keepPts : Int) < maxPts then
            a'
          else
            let exactUnread := a'.countMaterializedUnread channelId channelType
            if c.unreadCount = exactUnread then
              a'
            else
              a'.upsertChannel channelId { c with unreadCount := exactUnread }

end Writes

section Reading

variable {a : Account} {channelId : Nat} {c : ChannelRecord}

theorem listed_iff :
    a.listed channelId c = true ↔
      c.isDeleted = false ∧
        (c.channelType = 1 → 0 < a.lastTimestamp channelId c) := by
  simp [Account.listed, imp_iff_not_or]

theorem getChannelById_hidden
    (hc : a.channel.lookup channelId = some c) (hhidden : c.isDeleted = true) :
    a.getChannelById channelId = none := by
  unfold Account.getChannelById ReadState.getChannelById Account.view
  rw [hc]
  simp [hhidden]

theorem getChannelById_visible
    (hc : a.channel.lookup channelId = some c) (hvisible : c.isDeleted = false) :
    ∃ messageId content,
      a.getChannelById channelId = some
        { c with
          unreadCount := a.unread channelId c
          lastMsgTimestamp := a.lastTimestamp channelId c
          lastLocalMessageId := messageId
          lastMsgContent := content
          channelName := a.resolvedName channelId c
          peerUserId := c.peer } := by
  have hview : (a.view channelId c.channelType).channel = some c.toChannelRow := by
    simp [Account.view, hc]
  unfold Account.getChannelById ReadState.getChannelById
  rw [hc]
  dsimp only
  rw [hview]
  dsimp only
  rw [hvisible, if_neg Bool.false_ne_true]
  exact ⟨_, _, rfl⟩

theorem afterRead_hidden
    (hc : a.channel.lookup channelId = some c) (hhidden : c.isDeleted = true) :
    a.afterRead channelId = a := by
  unfold Account.afterRead
  rw [hc]
  simp [hhidden]

/-- Reading a row writes at most its count. -/
theorem lookup_afterRead
    (hc : a.channel.lookup channelId = some c) (hvisible : c.isDeleted = false) :
    (a.afterRead channelId).channel.lookup channelId = some
      { c with
        unreadCount :=
          if a.unread channelId c = max 0 c.unreadCount then c.unreadCount
          else a.unread channelId c } := by
  unfold Account.afterRead Account.healed
  rw [hc]
  dsimp only
  rw [if_neg (by rw [hvisible]; exact Bool.false_ne_true)]
  split
  · exact hc
  · exact AList.lookup_insert _

theorem lookup_afterRead_of_ne
    {other : Nat} (hne : other ≠ channelId) :
    (a.afterRead channelId).channel.lookup other = a.channel.lookup other := by
  unfold Account.afterRead Account.healed
  split
  · rfl
  · split
    · rfl
    · split
      · rfl
      · exact AList.lookup_insert_ne hne

/-- Reading a row touches no other table. -/
theorem afterRead_eq (a : Account) (channelId : Nat) :
    a.afterRead channelId =
      { a with channel := (a.afterRead channelId).channel } := by
  unfold Account.afterRead Account.healed
  split
  · rfl
  · split
    · rfl
    · split <;> rfl

end Reading

section Updating

variable {a : Account} {channelId : Nat} {c : ChannelRecord}

theorem overwrite_of_le {input : ChannelRecord} (h : c.version ≤ input.version) :
    c.overwrite input =
      { input with
        peerUserId := input.peerUserId.or c.peerUserId
        isDeleted :=
          if c.lastMsgTimestamp < input.lastMsgTimestamp then false
          else c.isDeleted } :=
  if_pos h

theorem overwrite_of_lt {input : ChannelRecord} (h : input.version < c.version) :
    c.overwrite input = c :=
  if_neg (Int.not_le.mpr h)

theorem lookup_upsertChannel (a : Account) (channelId : Nat) (input : ChannelRecord) :
    (a.upsertChannel channelId input).channel.lookup channelId = some
      (match a.channel.lookup channelId with
        | none => input
        | some c => c.overwrite input) :=
  AList.lookup_insert _

theorem lookup_upsertChannel_of_ne
    (a : Account) (channelId : Nat) (input : ChannelRecord)
    {other : Nat} (hne : other ≠ channelId) :
    (a.upsertChannel channelId input).channel.lookup other =
      a.channel.lookup other :=
  AList.lookup_insert_ne hne

/-- What an update leaves alone in any case. -/
theorem updateChannelLastMessage_others
    (a : Account) (channelId : Nat) (channelType : Int) (content : String)
    (timestampMs : Int) (messageId : Nat) (fromUid : Option Nat)
    (bumpUnread : Bool) :
    let a' := a.updateChannelLastMessage channelId channelType content timestampMs
      messageId fromUid bumpUnread
    (∀ other, other ≠ channelId →
      a'.channel.lookup other = a.channel.lookup other) ∧
      a'.uid = a.uid ∧ a'.base = a.base ∧ a'.channelExtra = a.channelExtra := by
  have hrest := afterRead_eq a channelId
  refine ⟨fun other hne => ?_, ?_, ?_, ?_⟩
  · exact (lookup_upsertChannel_of_ne _ _ _ hne).trans (lookup_afterRead_of_ne hne)
  all_goals
    unfold Account.updateChannelLastMessage Account.upsertChannel
    rw [hrest]

/-- The update of a channel without row creates it. -/
theorem updateChannelLastMessage_none
    (hc : a.channel.lookup channelId = none)
    (channelType : Int) (content : String) (timestampMs : Int) (messageId : Nat)
    (fromUid : Option Nat) (bumpUnread : Bool) :
    (a.updateChannelLastMessage channelId channelType content timestampMs
      messageId fromUid bumpUnread).channel.lookup channelId = some
      { freshChannel channelType with
        unreadCount := if bumpUnread then 1 else 0
        lastMsgTimestamp := timestampMs
        lastLocalMessageId := messageId
        lastMsgContent := content
        peerUserId := inferredPeer a.uid channelType fromUid } := by
  have htakes :
      (a.view channelId channelType).previewShouldUpdate 0 messageId = true := by
    simp [ReadState.previewShouldUpdate]
  have hget : a.getChannelById channelId = none := by
    unfold Account.getChannelById
    rw [hc]
  have hread : a.afterRead channelId = a := by
    unfold Account.afterRead
    rw [hc]
  have hone : saturatingSucc 0 = 1 := by decide
  unfold Account.updateChannelLastMessage
  dsimp only
  rw [lookup_upsertChannel, hread, hget, hc]
  simp only [freshChannel, Option.getD_none, Option.isSome_none,
    Bool.false_eq_true, htakes, hone, if_true, if_false]

/-- The update of a row that is shown writes the resolved name into it. -/
theorem updateChannelLastMessage_visible
    (hc : a.channel.lookup channelId = some c) (hvisible : c.isDeleted = false)
    (channelType : Int) (content : String) (timestampMs : Int) (messageId : Nat)
    (fromUid : Option Nat) (bumpUnread : Bool) :
    ∃ timestamp previous preview,
      (a.updateChannelLastMessage channelId channelType content timestampMs
        messageId fromUid bumpUnread).channel.lookup channelId = some
        { c with
          unreadCount :=
            if bumpUnread then saturatingSucc (a.unread channelId c)
            else a.unread channelId c
          lastMsgTimestamp := timestamp
          lastLocalMessageId := previous
          lastMsgContent := preview
          channelType := channelType
          channelName := a.resolvedName channelId c } := by
  obtain ⟨previous, preview, hget⟩ := getChannelById_visible hc hvisible
  unfold Account.updateChannelLastMessage
  dsimp only
  rw [lookup_upsertChannel, lookup_afterRead hc hvisible, hget]
  unfold ChannelRecord.overwrite
  simp only [Option.getD_some, Option.isSome_some, if_true, Int.le_refl,
    Option.none_or, hvisible, ite_self]
  exact ⟨_, _, _, rfl⟩

/-- The update of a hidden row writes blank settings into it, or nothing. -/
theorem updateChannelLastMessage_hidden
    (hc : a.channel.lookup channelId = some c) (hhidden : c.isDeleted = true)
    (channelType : Int) (content : String) (timestampMs : Int) (messageId : Nat)
    (fromUid : Option Nat) (bumpUnread : Bool) :
    (a.updateChannelLastMessage channelId channelType content timestampMs
      messageId fromUid bumpUnread).channel.lookup channelId = some
      (if c.version ≤ 0 then
        { freshChannel channelType with
          unreadCount := if bumpUnread then 1 else 0
          lastMsgTimestamp := timestampMs
          lastLocalMessageId := messageId
          lastMsgContent := content
          isDeleted := decide (timestampMs ≤ c.lastMsgTimestamp)
          peerUserId :=
            (inferredPeer a.uid channelType fromUid).or c.peerUserId }
      else
        c) := by
  have htakes :
      (a.view channelId channelType).previewShouldUpdate 0 messageId = true := by
    simp [ReadState.previewShouldUpdate]
  have hdeleted : (if c.lastMsgTimestamp < timestampMs then false else true) =
      decide (timestampMs ≤ c.lastMsgTimestamp) := by
    split <;> simp <;> omega
  unfold Account.updateChannelLastMessage
  dsimp only
  rw [lookup_upsertChannel, afterRead_hidden hc hhidden,
    getChannelById_hidden hc hhidden, hc]
  have hone : saturatingSucc 0 = 1 := by decide
  simp only [ChannelRecord.overwrite, freshChannel, Option.getD_none,
    Option.isSome_none, Bool.false_eq_true, htakes, hhidden, hone, if_true,
    if_false, hdeleted]

/-- Where the types agree, the row was healed when it was read. -/
theorem reconcile_eq_afterRead
    (hc : a.channel.lookup channelId = some c)
    {channelType : Int} (htype : c.isDeleted = false → c.channelType = channelType) :
    a.reconcileChannelUnreadAfterDifference channelId channelType =
      a.afterRead channelId := by
  unfold Account.reconcileChannelUnreadAfterDifference
  cases hvisible : c.isDeleted with
  | true =>
      rw [getChannelById_hidden hc hvisible]
  | false =>
      obtain ⟨_, _, hget⟩ := getChannelById_visible hc hvisible
      obtain rfl := htype hvisible
      rw [hget, afterRead_eq]
      dsimp only
      split
      · rfl
      · rename_i extra hextra
        split
        · rfl
        · rename_i hcaught
          refine if_pos ?_
          unfold Account.unread ReadState.resolveChannelUnreadOnRead
            Account.countMaterializedUnread ReadState.keepPts
          have hview : (a.view channelId c.channelType).channelExtra = some extra :=
            hextra
          rw [hview]
          dsimp only
          refine (if_neg hcaught).trans ?_
          have hkeep : (Option.map (fun x : ChannelExtraRow => x.keepPts)
              (a.channelExtra channelId c.channelType)).getD 0 = extra.keepPts := by
            rw [hextra]
            rfl
          rw [← hkeep]
          rfl

end Updating

section View

variable {a : Account} {channelId : Nat} {channelType : Int}

theorem toChannelRow_overwrite (c input : ChannelRecord) :
    (c.overwrite input).toChannelRow =
      upsertedChannel (some c.toChannelRow) input.toChannelRow := by
  unfold ChannelRecord.overwrite upsertedChannel
  dsimp only
  split <;> rfl

theorem view_upsertChannel
    (a : Account) (channelId : Nat) (channelType : Int) (input : ChannelRecord) :
    (a.upsertChannel channelId input).view channelId channelType =
      { a.view channelId channelType with
        channel := some (upsertedChannel (a.view channelId channelType).channel
          input.toChannelRow) } := by
  unfold Account.view
  rw [lookup_upsertChannel]
  cases a.channel.lookup channelId with
  | none =>
      rfl
  | some c =>
      simp only [Option.map_some, toChannelRow_overwrite]
      rfl

theorem view_afterRead
    (htype : ∀ c ∈ a.channel.lookup channelId, c.channelType = channelType) :
    (a.afterRead channelId).view channelId channelType =
      (a.view channelId channelType).healed := by
  cases hc : a.channel.lookup channelId with
  | none =>
      simp [Account.afterRead, Account.view, ReadState.healed, hc]
  | some c =>
      obtain rfl := htype c hc
      cases hvisible : c.isDeleted with
      | true =>
          rw [afterRead_hidden hc hvisible]
          simp [Account.view, ReadState.healed, hc, hvisible]
      | false =>
          have hview : (a.view channelId c.channelType).channel =
              some c.toChannelRow := by
            simp [Account.view, hc]
          unfold Account.afterRead Account.healed ReadState.healed
          rw [hc, hview]
          simp only [Option.map_some, hvisible, Bool.false_eq_true, if_false]
          unfold Account.unread
          split
          · unfold Account.view
            rw [hc]
            rfl
          · unfold Account.view
            dsimp only
            rw [AList.lookup_insert]
            rfl

theorem view_getChannelById
    (htype : ∀ c ∈ a.channel.lookup channelId, c.channelType = channelType) :
    (a.view channelId channelType).getChannelById =
      (a.getChannelById channelId).map (fun c => c.toChannelRow) := by
  unfold Account.getChannelById
  cases hc : a.channel.lookup channelId with
  | none =>
      simp [Account.view, ReadState.getChannelById, hc]
  | some c =>
      obtain rfl := htype c hc
      dsimp only
      cases (a.view channelId c.channelType).getChannelById with
      | none =>
          rfl
      | some row =>
          rfl

/-- On the columns of `ReadState`, the update is the one of that channel. -/
theorem view_updateChannelLastMessage
    (htype : ∀ c ∈ a.channel.lookup channelId, c.channelType = channelType)
    (content : String) (timestampMs : Int) (messageId : Nat)
    (fromUid : Option Nat) (bumpUnread : Bool) :
    (a.updateChannelLastMessage channelId channelType content timestampMs
      messageId fromUid bumpUnread).view channelId channelType =
      (a.view channelId channelType).updateChannelLastMessage content timestampMs
        messageId bumpUnread := by
  unfold Account.updateChannelLastMessage ReadState.updateChannelLastMessage
  dsimp only
  rw [view_upsertChannel, view_afterRead htype, view_getChannelById htype]
  cases a.getChannelById channelId with
  | none =>
      have hone : saturatingSucc 0 = 1 := by decide
      simp only [Option.map_none, Option.getD_none, freshChannel, hone]
      rfl
  | some c =>
      rfl

end View

end PrivchatSdk.Channels
