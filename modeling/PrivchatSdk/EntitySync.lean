import Mathlib.Logic.Function.Basic
import PrivchatSdk.AttachedLinks

/-!
# The sync items of friends, users, groups and members

The branches of `apply_sync_entities` for the entities that have a table of their
own, next to the reactions and reminders of a message.  A row is written by an
upsert; the friend, user, group and group member tables only take an upsert that is
not older than the row (`upsertVersioned`).  A deletion of a friend or of a member
removes the row, that of a user, a group, a reaction or a reminder is a column.

The statements of these tables succeed here.  The payload crate's decoders are a
parameter, and so is its reading of a role.
-/

namespace PrivchatSdk

open StatementExec RelTable Receive

section Rows

/-- Table `friend`, under its user id. -/
structure FriendRow where
  tags : Option String
  isPinned : Bool
  createdAt : Int
  version : Int
  updatedAt : Int
  status : Int
  isOutgoing : Option Bool
  requestMessage : Option String
  requestSource : Option String
  requestSourceId : Option String
  deriving DecidableEq, Repr

/-- Table `user`, under its id, without the columns of the avatar cache. -/
structure UserRow where
  username : Option String
  nickname : Option String
  aliasName : Option String
  avatar : String
  userType : Int
  isDeleted : Bool
  channelId : String
  version : Int
  updatedAt : Int
  deriving DecidableEq, Repr

/-- Table `group`, under its id. -/
structure GroupRow where
  name : Option String
  avatar : String
  ownerId : Option Nat
  isDismissed : Bool
  createdAt : Int
  version : Int
  updatedAt : Int
  memberCount : Int
  deriving DecidableEq, Repr

/-- Table `group_member`, under its two ids. -/
structure GroupMemberRow where
  role : Int
  status : Int
  aliasName : Option String
  isMuted : Bool
  joinedAt : Int
  version : Int
  updatedAt : Int
  deriving DecidableEq, Repr

/-- Table `channel_member`, under the channel and the member. -/
structure ChannelMemberRow where
  memberName : String
  memberRemark : String
  memberAvatar : String
  memberInviteUid : Nat
  role : Int
  status : Int
  isDeleted : Bool
  robot : Int
  version : Int
  createdAt : Int
  updatedAt : Int
  extra : String
  forbiddenExpirationTime : Int
  memberAvatarCacheKey : String
  deriving DecidableEq, Repr

/-- The store with the tables of the entities. -/
structure EntityTables where
  base : Store
  friend : Nat → Option FriendRow
  user : Nat → Option UserRow
  group : Nat → Option GroupRow
  groupMember : Nat × Nat → Option GroupMemberRow
  channelMember : Nat × Int × Nat → Option ChannelMemberRow

/-- No row of an entity. -/
def EntityTables.empty (base : Store) : EntityTables where
  base := base
  friend _ := none
  user _ := none
  group _ := none
  groupMember _ := none
  channelMember _ := none

/-- `INSERT .. ON CONFLICT DO UPDATE .. WHERE excluded.version >= version`. -/
def upsertVersioned
    {ρ : Type} (version : ρ → Int) (excluded : Int) (write : Option ρ → ρ) :
    Option ρ → Option ρ
  | none => some (write none)
  | some r =>
      if version r ≤ excluded then some (write (some r)) else some r

/-- A username that an upsert does not take over a stored one. -/
def blankUsername (username : Option String) : Bool :=
  username == none || username == some ""

/-- The columns of `UPSERT_USER_SQL`; a blank username keeps the stored one. -/
def UserRow.writtenOver (input : UserRow) (old : Option UserRow) : UserRow :=
  { input with
    username :=
      if blankUsername input.username then
        (old.map UserRow.username).getD input.username
      else
        input.username }

/-- What `upsert_group` is given: without a count it keeps the stored one. -/
structure UpsertGroupInput where
  row : GroupRow
  memberCount : Option Int

/-- The columns of `upsert_group`. -/
def UpsertGroupInput.writtenOver
    (input : UpsertGroupInput) (old : Option GroupRow) : GroupRow :=
  { input.row with
    memberCount :=
      input.memberCount.getD ((old.map GroupRow.memberCount).getD 0) }

@[simp] theorem UpsertGroupInput.writtenOver_version
    (input : UpsertGroupInput) (old : Option GroupRow) :
    (input.writtenOver old).version = input.row.version := by
  rfl

/-- `UPDATE user SET username = ''`. -/
def UserRow.withoutUsername (r : UserRow) : UserRow :=
  { r with username := some "" }

namespace EntityTables

/-- `upsert_friend`. -/
def upsertFriend
    (s : EntityTables) (userId : Nat) (input : FriendRow) : EntityTables :=
  { s with
    friend := Function.update s.friend userId
      (upsertVersioned FriendRow.version input.version (fun _ => input)
        (s.friend userId)) }

/-- `delete_friend`: the row goes, and the username with it. -/
def deleteFriend (s : EntityTables) (userId : Nat) : EntityTables :=
  { s with
    friend := Function.update s.friend userId none
    user := Function.update s.user userId
      ((s.user userId).map UserRow.withoutUsername) }

/-- `upsert_user`. -/
def upsertUser
    (s : EntityTables) (userId : Nat) (input : UserRow) : EntityTables :=
  { s with
    user := Function.update s.user userId
      (upsertVersioned UserRow.version input.version input.writtenOver
        (s.user userId)) }

/-- `upsert_group`. -/
def upsertGroup
    (s : EntityTables) (groupId : Nat) (input : UpsertGroupInput) :
    EntityTables :=
  { s with
    group := Function.update s.group groupId
      (upsertVersioned GroupRow.version input.row.version input.writtenOver
        (s.group groupId)) }

/-- `upsert_group_member`. -/
def upsertGroupMember
    (s : EntityTables) (ids : Nat × Nat) (input : GroupMemberRow) :
    EntityTables :=
  { s with
    groupMember := Function.update s.groupMember ids
      (upsertVersioned GroupMemberRow.version input.version (fun _ => input)
        (s.groupMember ids)) }

/-- `delete_group_member`. -/
def deleteGroupMember (s : EntityTables) (ids : Nat × Nat) : EntityTables :=
  { s with groupMember := Function.update s.groupMember ids none }

/-- `upsert_channel_member`, whatever the stored version is. -/
def upsertChannelMember
    (s : EntityTables) (ids : Nat × Int × Nat) (input : ChannelMemberRow) :
    EntityTables :=
  { s with channelMember := Function.update s.channelMember ids (some input) }

/-- `delete_channel_member`. -/
def deleteChannelMember (s : EntityTables) (ids : Nat × Int × Nat) :
    EntityTables :=
  { s with channelMember := Function.update s.channelMember ids none }

end EntityTables

end Rows

section Payloads

/-- The relation inside a friend payload. -/
structure FriendMeta where
  createdAt : Option Int := none
  updatedAt : Option Int := none
  version : Option Int := none

/-- The user inside a friend payload. -/
structure EmbeddedUser where
  username : Option String := none
  nickname : Option String := none
  name : Option String := none
  aliasName : Option String := none
  avatar : Option String := none
  userType : Option Int := none
  typeField : Option Int := none
  updatedAt : Option Int := none
  version : Option Int := none

/-- The fields of a friend item that are read. -/
structure FriendSyncPayload where
  userId : Option Nat := none
  uid : Option Nat := none
  tags : Option String := none
  isPinned : Option Bool := none
  pinned : Option Bool := none
  createdAt : Option Int := none
  updatedAt : Option Int := none
  version : Option Int := none
  status : Option Int := none
  isOutgoing : Option Bool := none
  requestMessage : Option String := none
  requestSource : Option String := none
  requestSourceId : Option String := none
  friend : Option FriendMeta := none
  user : Option EmbeddedUser := none

/-- The fields of a group item that are read. -/
structure GroupSyncPayload where
  groupId : Option Nat := none
  name : Option String := none
  avatar : Option String := none
  avatarUrl : Option String := none
  ownerId : Option Nat := none
  memberCount : Option Nat := none
  createdAt : Option Int := none
  updatedAt : Option Int := none

/-- The fields of a group member item that are read. -/
structure GroupMemberSyncPayload where
  groupId : Option Nat := none
  userId : Option Nat := none
  uid : Option Nat := none
  role : Option Int := none
  status : Option Int := none
  aliasName : Option String := none
  isMuted : Option Bool := none
  joinedAt : Option Int := none
  updatedAt : Option Int := none
  version : Option Int := none

/-- The fields of a channel member item that are read. -/
structure ChannelMemberSyncPayload where
  channelId : Option Nat := none
  memberUid : Option Nat := none
  userId : Option Nat := none
  uid : Option Nat := none
  channelType : Option Int := none
  typeField : Option Int := none
  memberName : Option String := none
  name : Option String := none
  memberRemark : Option String := none
  remark : Option String := none
  memberAvatar : Option String := none
  avatar : Option String := none
  memberInviteUid : Option Nat := none
  inviterUid : Option Nat := none
  role : Option Int := none
  status : Option Int := none
  isDeleted : Option Bool := none
  robot : Option Int := none
  version : Option Int := none
  createdAt : Option Int := none
  updatedAt : Option Int := none
  extra : Option String := none
  forbiddenExpirationTime : Option Int := none
  memberAvatarCacheKey : Option String := none

/--
`serde_json::from_value` for each payload, or the default where it does not
decode, and `GroupMemberRole::from_wire_i32` back to a number.
-/
structure EntityDecoder where
  friend : Json → FriendSyncPayload
  group : Json → GroupSyncPayload
  groupMember : Json → GroupMemberSyncPayload
  channelMember : Json → ChannelMemberSyncPayload
  wireRole : Int → Int

/-- `parse_two_ids`. -/
def parseTwoIds (entityId : String) : Option (Nat × Nat) :=
  match idParts entityId with
  | first :: second :: _ => some (first, second)
  | _ => none

/-- `resolve_group_id_from_scope`. -/
def resolveGroupIdFromScope (scope : Option String) : Option Nat :=
  scope.bind parseEntityIdU64

variable (codec : Codec) (decoder : EntityDecoder)

/-- `server_role_to_local`. -/
def EntityDecoder.serverRoleToLocal (role : Option Int) : Int :=
  decoder.wireRole (role.getD 0)

section Friend

variable (item : SyncEntityItem Json)

/-- The user that a friend item names. -/
def EntityDecoder.friendUserId : Nat :=
  let friendSync := decoder.friend (itemPayload item)
  ((friendSync.userId.or friendSync.uid).or
    (parseEntityIdU64 item.entityId)).getD 0

/-- What a friend item upserts. -/
def EntityDecoder.friendInput (now : Int) : FriendRow :=
  let friendSync := decoder.friend (itemPayload item)
  let friendMeta := friendSync.friend.getD {}
  { tags := friendSync.tags
    isPinned := (friendSync.isPinned.or friendSync.pinned).getD false
    createdAt := (friendSync.createdAt.or friendMeta.createdAt).getD now
    version := wrapI64 item.version
    updatedAt := (((friendSync.updatedAt.or friendMeta.updatedAt).or
      friendMeta.version).or friendSync.version).getD (wrapI64 item.version)
    status := friendSync.status.getD 1
    isOutgoing := friendSync.isOutgoing
    requestMessage := friendSync.requestMessage
    requestSource := friendSync.requestSource
    requestSourceId := friendSync.requestSourceId }

@[simp] theorem EntityDecoder.friendInput_version (now : Int) :
    (decoder.friendInput item now).version = wrapI64 item.version := by
  simp only [EntityDecoder.friendInput]

/-- The user inside a friend item. -/
def EntityDecoder.embeddedUser : EmbeddedUser :=
  (decoder.friend (itemPayload item)).user.getD {}

/-- `has_embedded_user`. -/
def EmbeddedUser.isPresent (u : EmbeddedUser) : Bool :=
  u.username.isSome || u.nickname.isSome || u.name.isSome || u.aliasName.isSome ||
    u.avatar.isSome

/-- What the user inside a friend item upserts. -/
def EntityDecoder.embeddedUserInput : UserRow :=
  let u := decoder.embeddedUser item
  { username := u.username
    nickname := u.nickname.or u.name
    aliasName := u.aliasName
    avatar := u.avatar.getD ""
    userType := (u.userType.or u.typeField).getD 0
    isDeleted := false
    channelId := ""
    version := wrapI64 item.version
    updatedAt := (u.updatedAt.or u.version).getD (wrapI64 item.version) }

@[simp] theorem EntityDecoder.embeddedUserInput_version :
    (decoder.embeddedUserInput item).version = wrapI64 item.version := by
  simp only [EntityDecoder.embeddedUserInput]

/-- The `friend` branch. -/
def EntityDecoder.applyFriendItem (now : Int) (s : EntityTables) :
    EntityTables :=
  let userId := decoder.friendUserId item
  if userId = 0 then
    s
  else if item.deleted then
    s.deleteFriend userId
  else
    let s₁ := s.upsertFriend userId (decoder.friendInput item now)
    if (decoder.embeddedUser item).isPresent then
      s₁.upsertUser userId (decoder.embeddedUserInput item)
    else
      s₁

end Friend

section User

variable (item : SyncEntityItem Json)

/-- The user that a user item names. -/
def itemUserId : Nat :=
  ((jsonGetU64 (itemPayload item) ["user_id", "uid"]).or
    (parseEntityIdU64 item.entityId)).getD 0

/-- What a user item upserts. -/
def Codec.userInput : UserRow :=
  let payload := itemPayload item
  { username := codec.jsonGetString payload ["username"]
    nickname := codec.jsonGetString payload ["nickname", "name"]
    aliasName := codec.jsonGetString payload ["alias"]
    avatar := (codec.jsonGetString payload ["avatar"]).getD ""
    userType := (jsonGetI32 payload ["user_type", "type"]).getD 0
    isDeleted := item.deleted ||
      (jsonGetBool payload ["is_deleted"]).getD false
    channelId := (codec.jsonGetString payload ["channel_id"]).getD ""
    version := wrapI64 item.version
    updatedAt := (jsonGetI64 payload ["updated_at", "version"]).getD
      (wrapI64 item.version) }

@[simp] theorem Codec.userInput_version :
    (codec.userInput item).version = wrapI64 item.version := by
  simp only [Codec.userInput]

/-- The `user` branch, one item of the batch. -/
def Codec.applyUserItem (s : EntityTables) : EntityTables :=
  if itemUserId item = 0 then s
  else s.upsertUser (itemUserId item) (codec.userInput item)

end User

section Group

variable (item : SyncEntityItem Json)

/-- The group that a group item names. -/
def EntityDecoder.itemGroupId : Nat :=
  (((decoder.group (itemPayload item)).groupId.or
    (jsonGetU64 (itemPayload item) ["group_id"])).or
      (parseEntityIdU64 item.entityId)).getD 0

/-- The count of members that a group item brings. -/
def EntityDecoder.groupMemberCount : Option Int :=
  ((decoder.group (itemPayload item)).memberCount.map wrapI64).or
    (jsonGetI64 (itemPayload item) ["member_count"])

/-- What a group item upserts. -/
def Codec.groupInput (now : Int) : UpsertGroupInput :=
  let payload := itemPayload item
  let groupSync := decoder.group payload
  { row :=
      { name := groupSync.name.or
          (codec.jsonGetString payload ["name", "group_name"])
        avatar := ((groupSync.avatar.or groupSync.avatarUrl).or
          (codec.jsonGetString payload ["avatar", "avatar_url"])).getD ""
        ownerId := groupSync.ownerId.or (jsonGetU64 payload ["owner_id", "owner"])
        isDismissed := item.deleted ||
          (jsonGetBool payload ["is_dismissed"]).getD false
        createdAt := (groupSync.createdAt.or
          (jsonGetI64 payload ["created_at"])).getD now
        version := wrapI64 item.version
        updatedAt := (groupSync.updatedAt.or
          (jsonGetI64 payload ["updated_at", "version"])).getD
            (wrapI64 item.version)
        memberCount := 0 }
    memberCount := decoder.groupMemberCount item }

@[simp] theorem Codec.groupInput_version (now : Int) :
    (codec.groupInput decoder item now).row.version = wrapI64 item.version := by
  simp only [Codec.groupInput]

@[simp] theorem Codec.groupInput_memberCount (now : Int) :
    (codec.groupInput decoder item now).memberCount =
      decoder.groupMemberCount item := by
  simp only [Codec.groupInput]

/-- The `group` branch. -/
def Codec.applyGroupItem (now : Int) (s : EntityTables) : EntityTables :=
  if decoder.itemGroupId item = 0 then s
  else
    s.upsertGroup (decoder.itemGroupId item) (codec.groupInput decoder item now)

end Group

section GroupMember

variable (scope : Option String) (item : SyncEntityItem Json)

/-- The group and the user that a group member item names. -/
def EntityDecoder.groupMemberIds : Nat × Nat :=
  let groupMember := decoder.groupMember (itemPayload item)
  (((groupMember.groupId.or (resolveGroupIdFromScope scope)).or
      ((parseTwoIds item.entityId).map Prod.fst)).getD 0,
    ((groupMember.userId.or groupMember.uid).or
      ((parseTwoIds item.entityId).map Prod.snd)).getD 0)

/-- What a group member item upserts. -/
def EntityDecoder.groupMemberInput (now : Int) : GroupMemberRow :=
  let groupMember := decoder.groupMember (itemPayload item)
  { role := decoder.serverRoleToLocal groupMember.role
    status := groupMember.status.getD 0
    aliasName := groupMember.aliasName
    isMuted := groupMember.isMuted.getD false
    joinedAt := groupMember.joinedAt.getD now
    version := wrapI64 item.version
    updatedAt := (groupMember.updatedAt.or groupMember.version).getD
      (wrapI64 item.version) }

@[simp] theorem EntityDecoder.groupMemberInput_version (now : Int) :
    (decoder.groupMemberInput item now).version = wrapI64 item.version := by
  simp only [EntityDecoder.groupMemberInput]

/-- The `group_member` branch. -/
def EntityDecoder.applyGroupMemberItem (now : Int) (s : EntityTables) :
    EntityTables :=
  let ids := decoder.groupMemberIds scope item
  if ids.1 = 0 ∨ ids.2 = 0 then
    s
  else if item.deleted then
    s.deleteGroupMember ids
  else
    s.upsertGroupMember ids (decoder.groupMemberInput item now)

end GroupMember

section ChannelMember

variable (item : SyncEntityItem Json)

/-- The channel and the user that a channel member item names. -/
def EntityDecoder.channelMemberIds : Nat × Nat :=
  let channelMember := decoder.channelMember (itemPayload item)
  ((channelMember.channelId.or
      ((parseTwoIds item.entityId).map Prod.fst)).getD 0,
    (((channelMember.memberUid.or channelMember.userId).or
      channelMember.uid).or ((parseTwoIds item.entityId).map Prod.snd)).getD 0)

/-- The type of the channel that a channel member item names. -/
def EntityDecoder.channelMemberType : Option Int :=
  let channelMember := decoder.channelMember (itemPayload item)
  (channelMember.channelType.or channelMember.typeField).map
    (fun v => if v = 0 then 1 else v)

/-- What a channel member item upserts. -/
def EntityDecoder.channelMemberInput (now : Int) : ChannelMemberRow :=
  let channelMember := decoder.channelMember (itemPayload item)
  { memberName := (channelMember.memberName.or channelMember.name).getD ""
    memberRemark := (channelMember.memberRemark.or channelMember.remark).getD ""
    memberAvatar := (channelMember.memberAvatar.or channelMember.avatar).getD ""
    memberInviteUid :=
      (channelMember.memberInviteUid.or channelMember.inviterUid).getD 0
    role := channelMember.role.getD 0
    status := channelMember.status.getD 0
    isDeleted := channelMember.isDeleted.getD false
    robot := channelMember.robot.getD 0
    version := channelMember.version.getD (wrapI64 item.version)
    createdAt := channelMember.createdAt.getD now
    updatedAt := channelMember.updatedAt.getD now
    extra := channelMember.extra.getD ""
    forbiddenExpirationTime := channelMember.forbiddenExpirationTime.getD 0
    memberAvatarCacheKey := channelMember.memberAvatarCacheKey.getD "" }

/-- A text that is not blank, trimmed. -/
def trimmedText (text : Option String) : Option String :=
  (text.map trim).filter (fun s => s != "")

/-- What a channel member item says about the user. -/
def EntityDecoder.memberUserInput : UserRow :=
  let channelMember := decoder.channelMember (itemPayload item)
  let inferredUsername :=
    trimmedText (channelMember.memberName.or channelMember.name)
  { username := inferredUsername
    nickname := inferredUsername
    aliasName := trimmedText (channelMember.memberRemark.or channelMember.remark)
    avatar := (channelMember.memberAvatar.or channelMember.avatar).getD ""
    userType := 0
    isDeleted := false
    channelId := ""
    version := wrapI64 item.version
    updatedAt := (channelMember.updatedAt.or channelMember.version).getD
      (wrapI64 item.version) }

@[simp] theorem EntityDecoder.memberUserInput_version :
    (decoder.memberUserInput item).version = wrapI64 item.version := by
  simp only [EntityDecoder.memberUserInput]

/-- A channel member item says something about the user. -/
def EntityDecoder.hydratesUser : Bool :=
  let input := decoder.memberUserInput item
  input.username.isSome || input.aliasName.isSome || input.avatar != ""

/-- The `channel_member` branch. -/
def EntityDecoder.applyChannelMemberItem (now : Int) (s : EntityTables) :
    EntityTables :=
  let ids := decoder.channelMemberIds item
  if ids.1 = 0 ∨ ids.2 = 0 then
    s
  else
    match decoder.channelMemberType item with
    | none => s
    | some channelType =>
        if item.deleted then
          s.deleteChannelMember (ids.1, channelType, ids.2)
        else
          let s₁ := s.upsertChannelMember (ids.1, channelType, ids.2)
            (decoder.channelMemberInput item now)
          if decoder.hydratesUser item then
            s₁.upsertUser ids.2 (decoder.memberUserInput item)
          else
            s₁

end ChannelMember

end Payloads

section Batches

/-- The entity types of this module. -/
inductive EntityType where
  | friend
  | user
  | group
  | groupMember
  | channelMember
  | reaction
  | reminder
  deriving DecidableEq, Repr

/-- An item with the scope of its batch. -/
structure ScopedItem where
  scope : Option String
  item : SyncEntityItem Json

/-- A batch: a moment, a scope and the items. -/
structure EntityBatch (τ : Type) where
  moment : τ
  scope : Option String
  items : List (SyncEntityItem Json)

variable (codec : Codec) (decoder : EntityDecoder)

/-- One item in the branch of its entity type. -/
def Codec.applyEntityItem
    (entityType : EntityType) (now : Int) (i : ScopedItem) (s : EntityTables) :
    EntityTables :=
  match entityType with
  | .friend => decoder.applyFriendItem i.item now s
  | .user => codec.applyUserItem i.item s
  | .group => codec.applyGroupItem decoder i.item now s
  | .groupMember => decoder.applyGroupMemberItem i.scope i.item now s
  | .channelMember => decoder.applyChannelMemberItem i.item now s
  | .reaction =>
      { s with
        base := (codec.applyReactionItem i.scope i.item).after (.calm now)
          s.base }
  | .reminder =>
      { s with
        base := (codec.applyReminderItem i.scope i.item).after (.calm now)
          s.base }

/-- `apply_sync_entities`: the clock is read once a batch. -/
def Codec.applySyncEntities
    {τ : Type} (clock : τ → Int) (entityType : EntityType) (s : EntityTables)
    (batch : EntityBatch τ) : EntityTables :=
  batch.items.foldl
    (fun s item => codec.applyEntityItem decoder entityType
      (clock batch.moment) ⟨batch.scope, item⟩ s) s

end Batches

end PrivchatSdk
