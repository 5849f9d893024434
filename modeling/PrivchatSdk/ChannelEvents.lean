import Mathlib.Data.List.Sort
import PrivchatSdk.ChannelList
import PrivchatSdk.Lib.Totals
import PrivchatSdk.Store.Change

/-!
# What happens to the channels of an account

Messages arrive, cursors move, channels are hidden, deleted and synced, and the
list is read.  Each event writes at most one row of table `channel`, the reading
of the list apart, which heals the counts of the rows it shows.

`list_channels` and `get_total_unread_count` are the two queries over all rows.  On
the columns of one channel, an arrival is the one of `ReadState` (`view_receive`).
-/

namespace PrivchatSdk.Channels

open MapTotal

section Writes

/-- The message branch of `apply_sync_entities`; only realtime messages count. -/
def Account.receive
    (a : Account) (input : UpsertRemoteMessageInput) (content : String)
    (timestamp : Int) (bumpUnreadOnIncoming : Bool) (now : Int) : Account :=
  match upsertRemoteMessageWithResult (some a.uid) input (.calm now) a.base with
  | (.error _, base) => { a with base := base }
  | (.ok upserted, base) =>
      let a' := { a with base := base }
      let afterCursor :=
        (a'.view input.channelId input.channelType).isAfterReadCursor input.pts
      a'.updateChannelLastMessage input.channelId input.channelType content timestamp
        upserted.messageId (some input.fromUid)
        (bumpUnreadOnIncoming && input.fromUid != a.uid && upserted.insertedNew &&
          afterCursor)

/-- `project_channel_read_cursor`: the channel row is found by its id only. -/
def Account.projectChannelReadCursor
    (a : Account) (channelId : Nat) (channelType : Int) (lastReadPts : Nat)
    (now : Int) : Account :=
  let s := (a.view channelId channelType).projectChannelReadCursor lastReadPts now
  { a with
    base := s.base
    channelExtra := fun id type =>
      if id = channelId ∧ type = channelType then s.channelExtra
      else a.channelExtra id type
    channel :=
      match a.channel.lookup channelId, s.channel with
      | some c, some row => a.channel.insert channelId { c with toChannelRow := row }
      | _, _ => a.channel }

/-- `UPDATE channel SET is_deleted = ..` -/
def Account.markDeleted (a : Account) (channelId : Nat) (deleted : Bool) : Account :=
  match a.channel.lookup channelId with
  | none => a
  | some c =>
      { a with
        channel := a.channel.insert channelId { c with isDeleted := deleted } }

/-- `set_channel_hidden`. -/
def Account.setChannelHidden (a : Account) (channelId : Nat) (hidden : Bool) :
    Account :=
  a.markDeleted channelId hidden

/-- `delete_channel_local`. -/
def Account.deleteChannelLocal (a : Account) (channelId : Nat) : Account :=
  { a.markDeleted channelId true with base := a.base.withoutChannel channelId }

/-- What a channel entity says. -/
structure ChannelItem where
  channelId : Nat
  channelType : Int
  channelName : String
  channelRemark : String
  avatar : String
  unreadCount : Option Int
  top : Option Int
  mute : Option Int
  lastMsgTimestamp : Option Int
  lastMsgContent : Option String
  peerUserId : Option Nat
  version : Int
  deriving DecidableEq, Repr

/-- `resolve_channel_last_message_fields`. -/
def resolveChannelLastMessageFields
    (existing : Option ChannelRecord) (syncedTimestamp : Option Int)
    (syncedContent : Option String) : Int × String × Nat :=
  let synced := (syncedTimestamp.getD 0, syncedContent.getD "", 0)
  match existing with
  | some c =>
      if 0 < c.lastLocalMessageId ∨ 0 < c.lastMsgTimestamp then
        (c.lastMsgTimestamp, c.lastMsgContent, c.lastLocalMessageId)
      else
        synced
  | none => synced

/-- `resolve_channel_unread_count`. -/
def resolveChannelUnreadCount (existingUnread syncedUnread : Option Int) : Int :=
  max 0 (existingUnread.getD (syncedUnread.getD 0))

/-- The count of a synced row: the server's only for a row that is not there. -/
def syncedUnread
    (existing : Option ChannelRecord) (synced : Option Int)
    (materialized : Option Nat) : Int :=
  match existing.map (fun c => c.unreadCount), synced, materialized with
  | some _, some 0, some 0 => 0
  | existingUnread, synced, _ => resolveChannelUnreadCount existingUnread synced

/-- The row that an entity writes, after the row that was read. -/
def ChannelItem.toRow
    (item : ChannelItem) (existing : Option ChannelRecord)
    (materialized : Option Nat) : ChannelRecord :=
  let last := resolveChannelLastMessageFields existing item.lastMsgTimestamp
    item.lastMsgContent
  { channelType := item.channelType
    channelName := item.channelName
    channelRemark := item.channelRemark
    avatar := item.avatar
    unreadCount := syncedUnread existing item.unreadCount materialized
    top := item.top.getD ((existing.map (fun c => c.top)).getD 0)
    mute := item.mute.getD ((existing.map (fun c => c.mute)).getD 0)
    lastMsgTimestamp := last.1
    lastLocalMessageId := last.2.2
    lastMsgContent := last.2.1
    version := item.version
    isDeleted := false
    peerUserId := item.peerUserId }

/-- The channel branch of `apply_sync_entities`. -/
def Account.applyChannelItem (a : Account) (item : ChannelItem) : Account :=
  let existing := a.getChannelById item.channelId
  let a' := a.afterRead item.channelId
  let materialized :=
    if existing.isSome then
      some (a'.countMaterializedUnread item.channelId item.channelType)
    else
      none
  a'.upsertChannel item.channelId (item.toRow existing materialized)

end Writes

section Queries

/-- `ORDER BY c.top DESC, resolved_last_msg_timestamp DESC, c.channel_id DESC`. -/
def Account.listedBefore (a : Account) (x y : Sigma (fun _ : Nat => ChannelRecord)) :
    Bool :=
  let timestamp (e : Sigma (fun _ : Nat => ChannelRecord)) := a.lastTimestamp e.1 e.2
  if x.2.top ≠ y.2.top then decide (y.2.top < x.2.top)
  else if timestamp x ≠ timestamp y then decide (timestamp y < timestamp x)
  else decide (y.1 ≤ x.1)

/-- The rows of one page of the list. -/
def Account.page (a : Account) (limit offset : Nat) :
    List (Sigma (fun _ : Nat => ChannelRecord)) :=
  (((a.channel.entries.filter (fun e => a.listed e.1 e.2)).insertionSort
    (fun x y => a.listedBefore x y = true)).drop offset).take limit

/-- `list_channels`: the rows are read as `get_channel_by_id` reads them. -/
def Account.listChannels (a : Account) (limit offset : Nat) :
    List (Nat × ChannelRecord) :=
  (a.page limit offset).filterMap
    (fun e => (a.getChannelById e.1).map (fun c => (e.1, c)))

/-- The account after the list was read. -/
def Account.afterList (a : Account) (limit offset : Nat) : Account :=
  (a.page limit offset).foldl (fun a e => a.healed e.1 e.2) a

/-- `get_total_unread_count`: the sum of an `i64`, cast to `i32`. -/
def Account.getTotalUnreadCount (a : Account) (excludeMuted : Bool) : Int :=
  Int.bmod
    (total (fun _ c => !excludeMuted || c.mute == 0) (fun c => c.unreadCount)
      a.channel) (2 ^ 32)

end Queries

section Events

/-- What happens to the channels of the account. -/
inductive ChannelEvent where
  | message (input : UpsertRemoteMessageInput) (content : String)
      (timestamp : Int) (bumpUnreadOnIncoming : Bool)
  | readCursor (channelId : Nat) (channelType : Int) (lastReadPts : Nat)
  | hide (channelId : Nat) (hidden : Bool)
  | delete (channelId : Nat)
  | channelItem (item : ChannelItem)
  | list (limit offset : Nat)

/-- One event, at a time of the clock. -/
def Account.step (a : Account) (e : Int × ChannelEvent) : Account :=
  match e.2 with
  | .message input content timestamp bumpUnreadOnIncoming =>
      a.receive input content timestamp bumpUnreadOnIncoming e.1
  | .readCursor channelId channelType lastReadPts =>
      a.projectChannelReadCursor channelId channelType lastReadPts e.1
  | .hide channelId hidden => a.setChannelHidden channelId hidden
  | .delete channelId => a.deleteChannelLocal channelId
  | .channelItem item => a.applyChannelItem item
  | .list limit offset => a.afterList limit offset

end Events

section View

/-- On the columns of `ReadState`, a realtime message is one of that channel. -/
theorem view_receive
    (a : Account) (input : UpsertRemoteMessageInput)
    (htype : ∀ c ∈ a.channel.lookup input.channelId,
      c.channelType = input.channelType)
    (content : String) (timestamp now : Int) :
    (a.receive input content timestamp true now).view input.channelId
        input.channelType =
      (a.view input.channelId input.channelType).receive input content timestamp
        now := by
  unfold Account.receive ReadState.receive
  have hview : upsertRemoteMessageWithResult
      (some (a.view input.channelId input.channelType).uid) input (.calm now)
        (a.view input.channelId input.channelType).base =
      upsertRemoteMessageWithResult (some a.uid) input (.calm now) a.base := rfl
  rw [hview]
  cases upsertRemoteMessageWithResult (some a.uid) input (.calm now) a.base with
  | mk result base =>
      cases result with
      | error e =>
          rfl
      | ok upserted =>
          dsimp only
          rw [Bool.true_and, Bool.and_comm (input.fromUid != a.uid)]
          exact view_updateChannelLastMessage (a := { a with base := base }) htype ..

end View

end PrivchatSdk.Channels
