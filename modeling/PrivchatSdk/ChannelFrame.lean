import PrivchatSdk.ChannelList

/-!
# What a message leaves of the row of its channel

`update_channel_last_message` and `reconcile_channel_unread_after_difference` read
the row of a channel, change the count and the last message, and write every
column back.  The row is read with its name resolved, and a hidden row is not
found, so what is written back is not what was stored.

`channel_settings_kept` says for which rows the other columns come out as they
were, and a hidden channel comes back with them.
-/

namespace PrivchatSdk.Channels

section Settings

/-- The columns that a message has no business with, and the derived peer. -/
structure ChannelSettings where
  channelType : Int
  channelName : String
  channelRemark : String
  avatar : String
  top : Int
  mute : Int
  version : Int
  peer : Option Nat
  deriving DecidableEq, Repr

def ChannelRecord.settings (c : ChannelRecord) : ChannelSettings where
  channelType := c.channelType
  channelName := c.channelName
  channelRemark := c.channelRemark
  avatar := c.avatar
  top := c.top
  mute := c.mute
  version := c.version
  peer := c.peer

/-- Of the account, a write changed at most the count and last message of `c`. -/
structure Account.Keeps
    (a a' : Account) (channelId : Nat) (c c' : ChannelRecord) : Prop where
  row : a'.channel.lookup channelId = some c'
  settings : c'.settings = c.settings
  others : ∀ other, other ≠ channelId →
    a'.channel.lookup other = a.channel.lookup other
  base : a'.base = a.base
  channelExtra : a'.channelExtra = a.channelExtra

/--
`update_channel_last_message` keeps the settings; a hidden row comes back if the
message is newer than its last one, and the message is counted.
-/
def Account.UpdateKeeps
    (a : Account) (channelId : Nat) (c : ChannelRecord) (channelType : Int)
    (content : String) (timestampMs : Int) (messageId : Nat)
    (fromUid : Option Nat) (bumpUnread : Bool) : Prop :=
  let a' := a.updateChannelLastMessage channelId channelType content timestampMs
    messageId fromUid bumpUnread
  ∃ c', a.Keeps a' channelId c c' ∧
    if c.isDeleted = true ∧ c.lastMsgTimestamp < timestampMs then
      a'.listed channelId c' = true ∧
        (bumpUnread = true →
          c'.unreadCount = saturatingSucc (a.unread channelId c))
    else
      c'.isDeleted = c.isDeleted

/-- `reconcile_channel_unread_after_difference` keeps the settings. -/
def Account.ReconcileKeeps
    (a : Account) (channelId : Nat) (c : ChannelRecord) (channelType : Int) :
    Prop :=
  let a' := a.reconcileChannelUnreadAfterDifference channelId channelType
  ∃ c', a.Keeps a' channelId c c' ∧ c'.isDeleted = c.isDeleted

/--
The rows that come out as they were: those that are read as they are stored, the
hidden ones that nothing is written to, and the hidden ones that hold the blank
settings of a new row.
-/
def Account.SafeRow
    (a : Account) (channelId : Nat) (c : ChannelRecord) (channelType : Int)
    (timestampMs : Int) (fromUid : Option Nat) (bumpUnread : Bool) : Prop :=
  if c.isDeleted = false then
    c.channelType = channelType ∧ a.resolvedName channelId c = c.channelName
  else if 0 < c.version then
    timestampMs ≤ c.lastMsgTimestamp
  else
    c.settings =
        { freshChannel channelType with
          peerUserId :=
            (inferredPeer a.uid channelType fromUid).or c.peerUserId }.settings ∧
      (c.lastMsgTimestamp < timestampMs →
        (channelType = 1 → 0 < ((a.view channelId channelType).previewRow.map
          (fun r => r.createdAt)).getD timestampMs) ∧
        (bumpUnread = true → a.unread channelId c = 0))

end Settings

section Writes

variable {a : Account} {channelId : Nat} {c : ChannelRecord}

/-- Reading a row keeps its settings. -/
theorem afterRead_keeps (hc : a.channel.lookup channelId = some c) :
    ∃ c', a.Keeps (a.afterRead channelId) channelId c c' ∧
      c'.isDeleted = c.isDeleted := by
  have hrest := afterRead_eq a channelId
  cases hvisible : c.isDeleted with
  | true =>
      rw [afterRead_hidden hc hvisible]
      exact ⟨c, ⟨hc, rfl, fun _ _ => rfl, rfl, rfl⟩, hvisible⟩
  | false =>
      refine ⟨_, ⟨lookup_afterRead hc hvisible, rfl,
        fun _ hne => lookup_afterRead_of_ne hne, ?_, ?_⟩, hvisible⟩
      · rw [hrest]
      · rw [hrest]

theorem reconcileKeeps
    (hc : a.channel.lookup channelId = some c)
    {channelType : Int} (htype : c.isDeleted = false → c.channelType = channelType) :
    a.ReconcileKeeps channelId c channelType := by
  unfold Account.ReconcileKeeps
  rw [reconcile_eq_afterRead hc htype]
  exact afterRead_keeps hc

theorem one_eq_saturatingSucc_iff (n : Int) :
    1 = saturatingSucc n ↔ n = 0 := by
  unfold saturatingSucc
  rw [min_def]
  split <;> omega

/-- What an update does to the settings is what it does to the row. -/
theorem updateKeeps_iff
    {channelType : Int} {content : String} {timestampMs : Int} {messageId : Nat}
    {fromUid : Option Nat} {bumpUnread : Bool} {c' : ChannelRecord}
    (hrow : (a.updateChannelLastMessage channelId channelType content timestampMs
      messageId fromUid bumpUnread).channel.lookup channelId = some c') :
    a.UpdateKeeps channelId c channelType content timestampMs messageId fromUid
        bumpUnread ↔
      c'.settings = c.settings ∧
        if c.isDeleted = true ∧ c.lastMsgTimestamp < timestampMs then
          a.listed channelId c' = true ∧
            (bumpUnread = true →
              c'.unreadCount = saturatingSucc (a.unread channelId c))
        else
          c'.isDeleted = c.isDeleted := by
  obtain ⟨hothers, huid, hbase, hextra⟩ := updateChannelLastMessage_others a
    channelId channelType content timestampMs messageId fromUid bumpUnread
  have hlisted : (a.updateChannelLastMessage channelId channelType content
      timestampMs messageId fromUid bumpUnread).listed channelId c' =
      a.listed channelId c' := by
    unfold Account.listed Account.lastTimestamp ReadState.previewRow
      Account.view ReadState.has
    rw [hbase]
  unfold Account.UpdateKeeps
  dsimp only
  constructor
  · rintro ⟨c₁, hkeeps, hlisting⟩
    obtain rfl : c' = c₁ := Option.some.inj (hrow.symm.trans hkeeps.row)
    rw [hlisted] at hlisting
    exact ⟨hkeeps.settings, hlisting⟩
  · rintro ⟨hsettings, hlisting⟩
    refine ⟨c', ⟨hrow, hsettings, hothers, hbase, hextra⟩, ?_⟩
    rw [hlisted]
    exact hlisting

theorem updateKeeps_visible_iff
    (hc : a.channel.lookup channelId = some c) (hvisible : c.isDeleted = false)
    (channelType : Int) (content : String) (timestampMs : Int) (messageId : Nat)
    (fromUid : Option Nat) (bumpUnread : Bool) :
    a.UpdateKeeps channelId c channelType content timestampMs messageId fromUid
        bumpUnread ↔
      c.channelType = channelType ∧ a.resolvedName channelId c = c.channelName := by
  obtain ⟨timestamp, previous, preview, hrow⟩ := updateChannelLastMessage_visible hc
    hvisible channelType content timestampMs messageId fromUid bumpUnread
  have hshown : ¬ (c.isDeleted = true ∧ c.lastMsgTimestamp < timestampMs) := by
    simp [hvisible]
  rw [updateKeeps_iff hrow, if_neg hshown]
  constructor
  · rintro ⟨hsettings, -⟩
    have htype := congrArg ChannelSettings.channelType hsettings
    have hname := congrArg ChannelSettings.channelName hsettings
    exact ⟨htype.symm, hname⟩
  · rintro ⟨rfl, hname⟩
    rw [hname]
    exact ⟨rfl, rfl⟩

/-- Nothing is written to a hidden row with a version: it stays hidden. -/
theorem updateKeeps_versioned_iff
    (hc : a.channel.lookup channelId = some c) (hhidden : c.isDeleted = true)
    (hversion : 0 < c.version)
    (channelType : Int) (content : String) (timestampMs : Int) (messageId : Nat)
    (fromUid : Option Nat) (bumpUnread : Bool) :
    a.UpdateKeeps channelId c channelType content timestampMs messageId fromUid
        bumpUnread ↔
      timestampMs ≤ c.lastMsgTimestamp := by
  have hrow := updateChannelLastMessage_hidden hc hhidden channelType content
    timestampMs messageId fromUid bumpUnread
  rw [if_neg (by omega)] at hrow
  rw [updateKeeps_iff hrow]
  by_cases hnewer : c.lastMsgTimestamp < timestampMs
  · rw [if_pos ⟨hhidden, hnewer⟩]
    constructor
    · rintro ⟨-, hlisted, -⟩
      simp [Account.listed, hhidden] at hlisted
    · intro hle
      omega
  · rw [if_neg (fun h => hnewer h.2)]
    exact iff_of_true ⟨rfl, rfl⟩ (by omega)

/-- A hidden row without version becomes the row of a new channel. -/
theorem updateKeeps_fresh_iff
    (hc : a.channel.lookup channelId = some c) (hhidden : c.isDeleted = true)
    (hversion : c.version ≤ 0)
    (channelType : Int) (content : String) (timestampMs : Int) (messageId : Nat)
    (fromUid : Option Nat) (bumpUnread : Bool) :
    a.UpdateKeeps channelId c channelType content timestampMs messageId fromUid
        bumpUnread ↔
      c.settings =
          { freshChannel channelType with
            peerUserId :=
              (inferredPeer a.uid channelType fromUid).or c.peerUserId }.settings ∧
        (c.lastMsgTimestamp < timestampMs →
          (channelType = 1 → 0 < ((a.view channelId channelType).previewRow.map
            (fun r => r.createdAt)).getD timestampMs) ∧
          (bumpUnread = true → a.unread channelId c = 0)) := by
  have hrow := updateChannelLastMessage_hidden hc hhidden channelType content
    timestampMs messageId fromUid bumpUnread
  rw [if_pos hversion] at hrow
  rw [updateKeeps_iff hrow]
  refine and_congr eq_comm ?_
  by_cases hnewer : c.lastMsgTimestamp < timestampMs
  · rw [if_pos ⟨hhidden, hnewer⟩, forall_prop_of_true hnewer]
    have hback : decide (timestampMs ≤ c.lastMsgTimestamp) = false := by
      simpa using hnewer
    refine and_congr ?_ ?_
    · rw [listed_iff, hback]
      exact and_iff_right rfl
    · refine forall_congr' (fun hbump => ?_)
      rw [if_pos hbump]
      exact one_eq_saturatingSucc_iff _
  · rw [if_neg (fun h => hnewer h.2), hhidden]
    refine iff_of_true ?_ (fun h => absurd h hnewer)
    simpa using hnewer

end Writes

section Result

variable {a : Account} {channelId : Nat} {c : ChannelRecord}

/--
The two writes keep the settings of a row, and bring a hidden channel back with
them, exactly when the row is one of the safe ones.
-/
theorem channel_settings_kept
    (hc : a.channel.lookup channelId = some c)
    (channelType : Int) (content : String) (timestampMs : Int) (messageId : Nat)
    (fromUid : Option Nat) (bumpUnread : Bool) :
    a.UpdateKeeps channelId c channelType content timestampMs messageId fromUid
          bumpUnread ∧
        a.ReconcileKeeps channelId c channelType ↔
      a.SafeRow channelId c channelType timestampMs fromUid bumpUnread := by
  unfold Account.SafeRow
  cases hvisible : c.isDeleted with
  | false =>
      rw [if_pos rfl, updateKeeps_visible_iff hc hvisible]
      constructor
      · exact fun h => h.1
      · exact fun h => ⟨h, reconcileKeeps hc (fun _ => h.1)⟩
  | true =>
      have hreconcile : a.ReconcileKeeps channelId c channelType :=
        reconcileKeeps hc (by simp [hvisible])
      rw [if_neg (by simp), and_iff_left hreconcile]
      split
      · rename_i hversion
        exact updateKeeps_versioned_iff hc hvisible hversion ..
      · rename_i hversion
        exact updateKeeps_fresh_iff hc hvisible (by omega) ..

/-- A direct channel of an old version: its name is the id of the peer, Ann. -/
def legacyRow : ChannelRecord :=
  { freshChannel 1 with channelName := "12345", top := 1 }

/-- A hidden group that the server has versioned. -/
def hiddenRow : ChannelRecord :=
  { freshChannel 2 with channelName := "team", version := 3, isDeleted := true }

/-- An account with one channel and the entity of user Ann. -/
def accountWith (c : ChannelRecord) : Account where
  uid := 1
  base := .empty
  user id :=
    if id = 12345 then
      some { aliasName := "", nickname := "Ann", username := "ann" }
    else
      none
  groupName _ := none
  groupMember _ := []
  channel := AList.singleton 10 c
  channelExtra _ _ := none

/-- A group without entity that was renamed keeps its settings. -/
theorem channel_settings_kept_group :
    let c := { freshChannel 2 with channelName := "team", mute := 1, version := 4 }
    (accountWith c).UpdateKeeps 10 c 2 "hi" 5 1 (some 7) true ∧
      (accountWith c).ReconcileKeeps 10 c 2 := by
  refine (channel_settings_kept (by rfl) 2 "hi" 5 1 (some 7) true).mpr ?_
  unfold Account.SafeRow
  decide +kernel

/--
The legacy row loses the peer with the name, and a hidden row that the server has
versioned stays hidden whatever arrives.
-/
theorem channel_settings_lost :
    (((accountWith legacyRow).updateChannelLastMessage 10 1 "hi" 5 1 (some 12345)
        true).channel.lookup 10).map (fun c => (c.channelName, c.peer)) =
        some ("Ann", none) ∧
      legacyRow.peer = some 12345 ∧
      ¬ (accountWith legacyRow).UpdateKeeps 10 legacyRow 1 "hi" 5 1 (some 12345)
        true ∧
      ¬ (accountWith hiddenRow).UpdateKeeps 10 hiddenRow 2 "hi" 5 1 (some 7)
        true := by
  refine ⟨by decide +kernel, by decide +kernel, ?_, ?_⟩
  · rw [updateKeeps_visible_iff (by rfl) (by rfl)]
    decide +kernel
  · rw [updateKeeps_versioned_iff (by rfl) (by rfl) (by decide)]
    decide +kernel

end Result

end PrivchatSdk.Channels
