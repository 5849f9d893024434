import Mathlib.Algebra.Order.Group.Int
import PrivchatSdk.ChannelEvents

/-!
# The badge and the list

`get_total_unread_count` sums the stored counts of all rows; `list_channels` shows
some of the rows, with resolved counts.  The two agree where a row with a count is
shown and read with that count, which is `Account.Counted`.

`total_unread_agrees` says which events keep it so: a run of them from a fresh
account leaves a badge that is the sum over the list.
-/

namespace PrivchatSdk.Channels

open MapTotal RelTable

section Badge

/-- The stored counts of all channels. -/
def Account.stored (a : Account) : Int :=
  total (fun _ _ => true) (fun c => c.unreadCount) a.channel

/-- The stored count of one channel. -/
def Account.storedAt (a : Account) (channelId : Nat) : Int :=
  amount (fun c => c.unreadCount) a.channel channelId

/-- The badge is the sum over the whole list, the unmuted rows of it if asked. -/
def Account.BadgeAgrees (a : Account) : Prop :=
  ∀ (excludeMuted : Bool) (limit : Nat), a.channel.entries.length ≤ limit →
    a.getTotalUnreadCount excludeMuted =
      (((a.listChannels limit 0).filter
        (fun e => !excludeMuted || e.2.mute == 0)).map
          (fun e => e.2.unreadCount)).sum

/-- The cursor of the channel has reached its last message. -/
def Account.caughtUp (a : Account) (channelId : Nat) (channelType : Int) : Bool :=
  let s := a.view channelId channelType
  s.channelExtra.any
    (fun x => decide (s.maxPts ≠ 0) && decide (s.maxPts ≤ (x.keepPts : Int)))

/-- A row with a count is shown and not read to the end. -/
def Account.RowCounted (a : Account) (channelId : Nat) (c : ChannelRecord) : Prop :=
  0 ≤ c.unreadCount ∧
    (c.unreadCount ≠ 0 →
      a.listed channelId c = true ∧ a.caughtUp channelId c.channelType = false)

structure Account.Counted (a : Account) : Prop where
  rows : ∀ channelId c, a.channel.lookup channelId = some c →
    a.RowCounted channelId c
  stamps : ∀ r ∈ a.base.message.rows, 0 < r.createdAt
  fits : a.stored < 2 ^ 31

variable {a : Account} {channelId : Nat} {c : ChannelRecord}

/-- Nothing is left beyond a cursor that caught up. -/
theorem unreadBeyond_eq_zero
    {s : ReadState} {keep : Nat} (h : s.maxPts ≤ keep) :
    s.unreadBeyond keep = 0 := by
  refine List.countP_eq_zero.mpr (fun r hr => ?_)
  simp only [Bool.and_eq_true, decide_eq_true_eq]
  rintro ⟨⟨hhas, -⟩, hbeyond⟩
  have := ReadState.le_maxPts hr hhas
  omega

theorem caughtUp_iff {channelType : Int} :
    a.caughtUp channelId channelType = true ↔
      ∃ x, a.channelExtra channelId channelType = some x ∧
        (a.view channelId channelType).maxPts ≠ 0 ∧
        (a.view channelId channelType).maxPts ≤ (x.keepPts : Int) := by
  unfold Account.caughtUp
  simp only [Option.any_eq_true, Bool.and_eq_true, decide_eq_true_eq]
  exact Iff.rfl

theorem unread_eq (a : Account) (channelId : Nat) (c : ChannelRecord) :
    a.unread channelId c =
      if a.caughtUp channelId c.channelType then 0 else max 0 c.unreadCount := by
  have hextra : (a.view channelId c.channelType).channelExtra =
      a.channelExtra channelId c.channelType := rfl
  unfold Account.unread ReadState.resolveChannelUnreadOnRead
  rw [hextra]
  split
  · rename_i hnone
    rw [if_neg]
    rw [caughtUp_iff, hnone]
    simp
  · rename_i x hx
    split
    · rename_i hbehind
      rw [if_neg]
      rw [caughtUp_iff, hx]
      rintro ⟨_, ⟨⟩, hpos, hle⟩
      omega
    · rename_i hcaught
      have hle : (a.view channelId c.channelType).maxPts ≤ x.keepPts := by omega
      rw [if_pos (caughtUp_iff.mpr ⟨x, hx, by omega, hle⟩),
        unreadBeyond_eq_zero hle]
      rfl

theorem unread_le (a : Account) (channelId : Nat) (c : ChannelRecord) :
    0 ≤ a.unread channelId c ∧ a.unread channelId c ≤ max 0 c.unreadCount := by
  rw [unread_eq]
  split <;> omega

/-- Such a row is read with its stored count. -/
theorem Account.RowCounted.unread_eq (h : a.RowCounted channelId c) :
    a.unread channelId c = c.unreadCount := by
  obtain ⟨hnonneg, hcount⟩ := h
  rw [Channels.unread_eq]
  by_cases hzero : c.unreadCount = 0
  · rw [hzero]
    simp
  · rw [(hcount hzero).2]
    simpa using hnonneg

/-- The row that is read has the count and the mute flag of the stored one. -/
theorem Account.RowCounted.getChannelById
    (h : a.RowCounted channelId c) (hc : a.channel.lookup channelId = some c)
    (hvisible : c.isDeleted = false) :
    ∃ row, a.getChannelById channelId = some row ∧
      row.unreadCount = c.unreadCount ∧ row.mute = c.mute := by
  obtain ⟨messageId, content, hget⟩ := getChannelById_visible hc hvisible
  exact ⟨_, hget, h.unread_eq, rfl⟩

/-- A page that is long enough holds every row that is shown. -/
theorem page_perm {limit : Nat} (hlimit : a.channel.entries.length ≤ limit) :
    (a.page limit 0).Perm
      (a.channel.entries.filter (fun e => a.listed e.1 e.2)) := by
  have hsort := List.perm_insertionSort (fun x y => a.listedBefore x y = true)
    (a.channel.entries.filter (fun e => a.listed e.1 e.2))
  have hlength := List.length_filter_le (fun e => a.listed e.1 e.2) a.channel.entries
  unfold Account.page
  rw [List.drop_zero, List.take_of_length_le (by rw [hsort.length_eq]; omega)]
  exact hsort

/-- The sum over the whole list is a sum over the table. -/
theorem sum_listChannels (h : a.Counted) (excludeMuted : Bool) {limit : Nat}
    (hlimit : a.channel.entries.length ≤ limit) :
    (((a.listChannels limit 0).filter
        (fun e => !excludeMuted || e.2.mute == 0)).map
          (fun e => e.2.unreadCount)).sum =
      total (fun id c => a.listed id c && (!excludeMuted || c.mute == 0))
        (fun c => c.unreadCount) a.channel := by
  let read (e : Sigma (fun _ : Nat => ChannelRecord)) : Nat × ChannelRecord :=
    (e.1, (a.getChannelById e.1).getD e.2)
  have hperm := page_perm hlimit
  have hget : ∀ e ∈ a.page limit 0, a.getChannelById e.1 = some (read e).2 ∧
      (read e).2.unreadCount = e.2.unreadCount ∧ (read e).2.mute = e.2.mute := by
    intro e he
    obtain ⟨hmem, hlisted⟩ := List.mem_filter.mp (hperm.mem_iff.mp he)
    have hrow := AList.mem_lookup_iff.mpr hmem
    obtain ⟨row, hfound, hcount, hmute⟩ :=
      (h.rows _ _ hrow).getChannelById hrow (listed_iff.mp hlisted).1
    have hread : (read e).2 = row := by
      simp [read, hfound]
    rw [hread]
    exact ⟨hfound, hcount, hmute⟩
  have hlist : a.listChannels limit 0 = (a.page limit 0).map read := by
    refine List.filterMap_eq_map_iff_forall_eq_some.mpr (fun e he => ?_)
    rw [(hget e he).1]
    rfl
  have hmute : (a.page limit 0).filter
        ((fun e => !excludeMuted || e.2.mute == 0) ∘ read) =
      (a.page limit 0).filter (fun e => !excludeMuted || e.2.mute == 0) := by
    refine List.filter_congr (fun e he => ?_)
    rw [Function.comp_apply, (hget e he).2.2]
  have hcount : ((a.page limit 0).filter
        (fun e => !excludeMuted || e.2.mute == 0)).map
          ((fun e => e.2.unreadCount) ∘ read) =
      ((a.page limit 0).filter (fun e => !excludeMuted || e.2.mute == 0)).map
        (fun e => e.2.unreadCount) := by
    refine List.map_congr_left (fun e he => ?_)
    exact (hget e (List.mem_filter.mp he).1).2.1
  rw [hlist, List.filter_map, hmute, List.map_map, hcount,
    ((hperm.filter _).map _).sum_eq, List.filter_filter]
  unfold total
  simp only [Bool.and_comm]

/-- Where the rows are counted, the badge is the sum over the list. -/
theorem Account.Counted.badgeAgrees (h : a.Counted) : a.BadgeAgrees := by
  intro excludeMuted limit hlimit
  have hnonneg : ∀ id c, a.channel.lookup id = some c → 0 ≤ c.unreadCount :=
    fun id c hc => (h.rows id c hc).1
  have hhidden : ∀ id c, a.channel.lookup id = some c →
      (!excludeMuted || c.mute == 0) = true → a.listed id c = false →
      c.unreadCount = 0 := by
    intro id c hc _ hlisted
    by_contra hcount
    have hshown := ((h.rows id c hc).2 hcount).1
    rw [hlisted] at hshown
    exact Bool.false_ne_true hshown
  have hsum := total_eq_of_zero (p := a.listed) hhidden
  have hpos := total_nonneg (fun _ c => !excludeMuted || c.mute == 0) hnonneg
  have hle := total_le_total (fun _ c => !excludeMuted || c.mute == 0) hnonneg
  have hfits := h.fits
  rw [sum_listChannels h excludeMuted hlimit, ← hsum]
  unfold Account.stored at hfits
  unfold Account.getTotalUnreadCount
  rw [Int.bmod_eq_of_le] <;> omega

end Badge

section Frame

/-- The messages of a channel. -/
def Account.messages (a : Account) (channelId : Nat) (channelType : Int) :
    List MessageRow :=
  a.base.message.rows.filter (a.view channelId channelType).has

/-- A step touched nothing that the count of another channel depends on. -/
structure Account.Touches (a a' : Account) (channelId : Nat) : Prop where
  row : ∀ other, other ≠ channelId →
    a'.channel.lookup other = a.channel.lookup other
  messages : ∀ other, other ≠ channelId → ∀ channelType,
    a'.messages other channelType = a.messages other channelType
  channelExtra : ∀ other, other ≠ channelId → ∀ channelType,
    a'.channelExtra other channelType = a.channelExtra other channelType

variable {a a' : Account} {channelId : Nat} {c : ChannelRecord}

theorem mem_messages {channelType : Int} {r : MessageRow} :
    r ∈ a.messages channelId channelType ↔
      r ∈ a.base.message.rows ∧ r.channelId = channelId ∧
        r.channelType = channelType := by
  simp [Account.messages, ReadState.has, Account.view]

theorem maxPts_congr
    {channelType : Int}
    (h : a'.messages channelId channelType = a.messages channelId channelType) :
    (a'.view channelId channelType).maxPts =
      (a.view channelId channelType).maxPts := by
  unfold Account.messages at h
  unfold ReadState.maxPts
  exact congrArg
    (fun rows : List MessageRow => ((rows.map MessageRow.pts).max?).getD 0) h

theorem caughtUp_congr
    {channelType : Int}
    (h : a'.messages channelId channelType = a.messages channelId channelType)
    (hextra : a'.channelExtra channelId channelType =
      a.channelExtra channelId channelType) :
    a'.caughtUp channelId channelType = a.caughtUp channelId channelType := by
  rw [Bool.eq_iff_iff, caughtUp_iff, caughtUp_iff, maxPts_congr h, hextra]

theorem previewRow_congr
    {channelType : Int}
    (h : a'.messages channelId channelType = a.messages channelId channelType) :
    (a'.view channelId channelType).previewRow =
      (a.view channelId channelType).previewRow := by
  unfold Account.messages at h
  unfold ReadState.previewRow
  exact congrArg _ h

/-- The preferred row of a list is one of its rows. -/
theorem foldl_previewBefore (rows : List MessageRow) (best : MessageRow) :
    ∃ r, (r = best ∨ r ∈ rows) ∧
      rows.foldl
        (fun best r =>
          match best with
          | none => some r
          | some b => if previewBefore r b then some r else some b)
        (some best) = some r := by
  induction rows generalizing best with
  | nil =>
      exact ⟨best, Or.inl rfl, rfl⟩
  | cons r rows ih =>
      rw [List.foldl_cons]
      dsimp only
      by_cases hbefore : previewBefore r best = true
      · obtain ⟨r', hr', hfold⟩ := ih r
        refine ⟨r', Or.inr (List.mem_cons.mpr hr'), ?_⟩
        rw [if_pos hbefore]
        exact hfold
      · obtain ⟨r', hr', hfold⟩ := ih best
        refine ⟨r', hr'.imp_right (List.mem_cons_of_mem _), ?_⟩
        rw [if_neg hbefore]
        exact hfold

/-- Where a channel has messages, one of them is previewed. -/
theorem exists_previewRow
    {channelType : Int} (h : a.messages channelId channelType ≠ []) :
    ∃ r ∈ a.messages channelId channelType,
      (a.view channelId channelType).previewRow = some r := by
  unfold ReadState.previewRow
  unfold Account.messages at h ⊢
  cases hrows : a.base.message.rows.filter (a.view channelId channelType).has with
  | nil =>
      exact absurd hrows h
  | cons r rows =>
      obtain ⟨r', hr', hfold⟩ := foldl_previewBefore rows r
      refine ⟨r', List.mem_cons.mpr hr', ?_⟩
      have hview : (a.view channelId channelType).base.message.rows.filter
          (a.view channelId channelType).has = r :: rows := hrows
      rw [hview]
      exact hfold

/-- A channel with messages has a time, if the messages have. -/
theorem lastTimestamp_pos
    (hstamps : ∀ r ∈ a.base.message.rows, 0 < r.createdAt)
    (h : a.messages channelId c.channelType ≠ []) :
    0 < a.lastTimestamp channelId c := by
  obtain ⟨r, hr, hpreview⟩ := exists_previewRow h
  unfold Account.lastTimestamp
  rw [hpreview]
  exact hstamps r (mem_messages.mp hr).1

theorem listed_congr
    {c' : ChannelRecord}
    (h : a'.messages channelId c.channelType = a.messages channelId c.channelType)
    (htype : c'.channelType = c.channelType)
    (hdeleted : c'.isDeleted = c.isDeleted)
    (htimestamp : c'.lastMsgTimestamp = c.lastMsgTimestamp) :
    a'.listed channelId c' = a.listed channelId c := by
  unfold Account.listed Account.lastTimestamp
  rw [htype, hdeleted, htimestamp, previewRow_congr h]

/-- A row keeps its standing where messages, cursor and the row itself do. -/
theorem Account.RowCounted.congr
    (h : a.RowCounted channelId c)
    (hmessages : a'.messages channelId c.channelType =
      a.messages channelId c.channelType)
    (hextra : a'.channelExtra channelId c.channelType =
      a.channelExtra channelId c.channelType) :
    a'.RowCounted channelId c := by
  refine ⟨h.1, fun hcount => ?_⟩
  obtain ⟨hlisted, hcaught⟩ := h.2 hcount
  rw [caughtUp_congr hmessages hextra, listed_congr hmessages rfl rfl rfl]
  exact ⟨hlisted, hcaught⟩

/-- What a step on one channel has to show. -/
theorem Account.Counted.write
    (h : a.Counted) (channelId : Nat) (htouch : a.Touches a' channelId)
    (hrow : ∀ c, a'.channel.lookup channelId = some c → a'.RowCounted channelId c)
    (hstamps : ∀ r ∈ a'.base.message.rows, 0 < r.createdAt)
    {n : Int} (hn : a'.storedAt channelId ≤ a.storedAt channelId + n)
    (hroom : a.stored + n < 2 ^ 31) :
    a'.Counted where
  rows other c hc := by
    by_cases hother : other = channelId
    · subst hother
      exact hrow c hc
    · rw [htouch.row other hother] at hc
      exact (h.rows other c hc).congr (htouch.messages other hother _)
        (htouch.channelExtra other hother _)
  stamps := hstamps
  fits := by
    have hsum := total_add_of_agree (f := fun c : ChannelRecord => c.unreadCount)
      htouch.row
    unfold Account.stored Account.storedAt at *
    omega

end Frame

section Conditions

/-- A stored copy of the message is in the message's own channel. -/
def Account.OwnCopies (a : Account) (input : UpsertRemoteMessageInput) : Prop :=
  ∀ r : MessageRow,
    a.base.byServerId input.serverMessageId = some r ∨
        a.base.byInputLocalId (some a.uid) input = some r →
      r.channelId = input.channelId ∧ r.channelType = input.channelType

/-- The message is new, of another user, and beyond the cursor. -/
def Account.countsNew
    (a : Account) (input : UpsertRemoteMessageInput) (bumpUnreadOnIncoming : Bool) :
    Bool :=
  bumpUnreadOnIncoming && input.fromUid != a.uid &&
    (a.base.byServerId input.serverMessageId).isNone &&
    (a.base.byInputLocalId (some a.uid) input).isNone &&
    (a.view input.channelId input.channelType).isAfterReadCursor input.pts

/--
An arrival: its copies and its row are of its channel, and a message that counts
either brings a hidden row back or leaves it alone.
-/
structure Account.ArrivalKeeps
    (a : Account) (input : UpsertRemoteMessageInput) (timestamp : Int)
    (bumpUnreadOnIncoming : Bool) : Prop where
  copies : a.OwnCopies input
  channelType : ∀ c, a.channel.lookup input.channelId = some c →
    c.channelType = input.channelType
  hidden : a.countsNew input bumpUnreadOnIncoming = true →
    ∀ c, a.channel.lookup input.channelId = some c → c.isDeleted = true →
      c.version ≤ 0 → c.lastMsgTimestamp < timestamp
  room : a.countsNew input bumpUnreadOnIncoming = true → a.stored + 1 < 2 ^ 31

/-- A cursor that catches up passes as many messages as the row has counted. -/
def Account.CursorKeeps
    (a : Account) (channelId : Nat) (channelType : Int) (lastReadPts : Nat) : Prop :=
  let s := a.view channelId channelType
  ∀ c, a.channel.lookup channelId = some c → c.channelType = channelType →
    s.keepPts < lastReadPts → s.maxPts ≠ 0 → s.maxPts ≤ lastReadPts →
      c.unreadCount ≤ s.base.message.rows.countP
        (fun r => s.passed s.keepPts lastReadPts r && r.fromUid != s.uid)

/-- A count from the server comes to a row that is shown and not caught up with. -/
def Account.BaselineKeeps (a : Account) (item : ChannelItem) : Prop :=
  0 < item.unreadCount.getD 0 →
    (item.channelType = 1 →
      0 < ((a.view item.channelId item.channelType).previewRow.map
        (fun r => r.createdAt)).getD (item.lastMsgTimestamp.getD 0)) ∧
      a.caughtUp item.channelId item.channelType = false ∧
      a.stored + item.unreadCount.getD 0 < 2 ^ 31

/--
An entity that is written keeps the type of a shown row; where no row is shown, its
count is the row's, and a hidden row comes back with it.
-/
def Account.ItemKeeps (a : Account) (item : ChannelItem) : Prop :=
  match a.channel.lookup item.channelId with
  | none => a.BaselineKeeps item
  | some c =>
      c.version ≤ item.version →
        if c.isDeleted = true then
          a.BaselineKeeps item ∧
            (0 < item.unreadCount.getD 0 →
              c.lastMsgTimestamp < item.lastMsgTimestamp.getD 0)
        else
          c.channelType = item.channelType

/-- The condition on one step. -/
def Account.StepKeeps (a : Account) (e : Int × ChannelEvent) : Prop :=
  match e.2 with
  | .message input _ timestamp bumpUnreadOnIncoming =>
      0 < e.1 ∧ a.ArrivalKeeps input timestamp bumpUnreadOnIncoming
  | .readCursor channelId channelType lastReadPts =>
      a.CursorKeeps channelId channelType lastReadPts
  | .hide channelId hidden => hidden = true → a.storedAt channelId = 0
  | .delete channelId => a.storedAt channelId = 0
  | .channelItem item => a.ItemKeeps item
  | .list _ _ => True

end Conditions

section Hiding

variable {a : Account} {channelId : Nat} {c : ChannelRecord}

theorem storedAt_eq (hc : a.channel.lookup channelId = some c) :
    a.storedAt channelId = c.unreadCount := by
  simp [Account.storedAt, amount, hc]

theorem Account.RowCounted.eq_zero
    (h : a.RowCounted channelId c) (hhidden : c.isDeleted = true) :
    c.unreadCount = 0 := by
  by_contra hcount
  have hvisible := (listed_iff.mp (h.2 hcount).1).1
  rw [hhidden] at hvisible
  exact Bool.true_eq_false.mp hvisible

theorem Account.Counted.storedAt_nonneg (h : a.Counted) (channelId : Nat) :
    0 ≤ a.storedAt channelId := by
  cases hc : a.channel.lookup channelId with
  | none =>
      simp [Account.storedAt, amount, hc]
  | some c =>
      rw [storedAt_eq hc]
      exact (h.rows channelId c hc).1

theorem rowCounted_of_zero (h : c.unreadCount = 0) : a.RowCounted channelId c :=
  ⟨by omega, fun hcount => absurd h hcount⟩

/-- Marking a row writes that row and only its flag. -/
theorem markDeleted_spec (a : Account) (channelId : Nat) (deleted : Bool) :
    let a' := a.markDeleted channelId deleted
    a'.channel.lookup channelId =
        (a.channel.lookup channelId).map (fun c => { c with isDeleted := deleted }) ∧
      (∀ other, other ≠ channelId →
        a'.channel.lookup other = a.channel.lookup other) ∧
      a' = { a with channel := a'.channel } := by
  unfold Account.markDeleted
  cases hc : a.channel.lookup channelId with
  | none =>
      exact ⟨hc, fun _ _ => rfl, rfl⟩
  | some c =>
      exact ⟨AList.lookup_insert _, fun _ hne => AList.lookup_insert_ne hne, rfl⟩

theorem storedAt_markDeleted (a : Account) (channelId : Nat) (deleted : Bool) :
    (a.markDeleted channelId deleted).storedAt channelId = a.storedAt channelId := by
  unfold Account.storedAt amount
  rw [(markDeleted_spec a channelId deleted).1]
  cases a.channel.lookup channelId with
  | none =>
      rfl
  | some c =>
      rfl

theorem Account.Counted.setChannelHidden
    (h : a.Counted) (hidden : Bool)
    (hok : hidden = true → a.storedAt channelId = 0) :
    (a.setChannelHidden channelId hidden).Counted := by
  obtain ⟨hlookup, hothers, hrest⟩ := markDeleted_spec a channelId hidden
  unfold Account.setChannelHidden
  rw [hrest]
  refine h.write (n := 0) channelId
    ⟨hothers, fun _ _ _ => rfl, fun _ _ _ => rfl⟩ ?_ h.stamps ?_ ?_
  · intro c' hc'
    rw [hlookup] at hc'
    obtain ⟨c, hc, rfl⟩ := Option.map_eq_some_iff.mp hc'
    have hcounted := h.rows channelId c hc
    cases hidden with
    | true =>
        refine rowCounted_of_zero ?_
        rw [← storedAt_eq hc]
        exact hok rfl
    | false =>
        refine ⟨hcounted.1, fun hcount => ?_⟩
        obtain ⟨hlisted, hcaught⟩ := hcounted.2 hcount
        exact ⟨listed_iff.mpr ⟨rfl, (listed_iff.mp hlisted).2⟩, hcaught⟩
  · have hsame := storedAt_markDeleted a channelId hidden
    rw [hrest] at hsame
    omega
  · have hfits := h.fits
    omega

theorem Account.Counted.deleteChannelLocal
    (h : a.Counted) (hok : a.storedAt channelId = 0) :
    (a.deleteChannelLocal channelId).Counted := by
  obtain ⟨hlookup, hothers, hrest⟩ := markDeleted_spec a channelId true
  unfold Account.deleteChannelLocal
  rw [hrest]
  refine h.write (n := 0) channelId
    ⟨hothers, ?_, fun _ _ _ => rfl⟩ ?_ ?_ ?_ ?_
  · intro other hne channelType
    unfold Account.messages Store.withoutChannel Table.deleteWhere
    dsimp only
    rw [List.filter_filter]
    refine List.filter_congr (fun r _ => ?_)
    by_cases hr : r.channelId = channelId
    · simp [ReadState.has, Account.view, hr, Ne.symm hne]
    · simp [ReadState.has, Account.view, hr]
  · intro c' hc'
    rw [hlookup] at hc'
    obtain ⟨c, hc, rfl⟩ := Option.map_eq_some_iff.mp hc'
    refine rowCounted_of_zero ?_
    rw [← storedAt_eq hc]
    exact hok
  · intro r hr
    exact h.stamps r ((Table.mem_deleteWhere _ _ _).mp hr).1
  · have hsame := storedAt_markDeleted a channelId true
    rw [hrest] at hsame
    exact Int.le_of_eq (hsame.trans (Int.add_zero _).symm)
  · have hfits := h.fits
    omega

end Hiding

section Listing

variable {a : Account} {channelId : Nat} {c : ChannelRecord}

/-- Reading a row that is counted heals nothing. -/
theorem Account.RowCounted.healed_eq (h : a.RowCounted channelId c) :
    a.healed channelId c = a := by
  unfold Account.healed
  rw [if_pos]
  rw [h.unread_eq, max_eq_right h.1]

theorem Account.Counted.afterRead_eq (h : a.Counted) (channelId : Nat) :
    a.afterRead channelId = a := by
  unfold Account.afterRead
  split
  · rfl
  · rename_i c hc
    rw [(h.rows channelId c hc).healed_eq, ite_self]

/-- Reading the list of an account whose rows are counted writes nothing. -/
theorem Account.Counted.afterList_eq (h : a.Counted) (limit offset : Nat) :
    a.afterList limit offset = a := by
  have hpage : ∀ e ∈ a.page limit offset, a.healed e.1 e.2 = a := by
    intro e he
    have hsorted := List.mem_of_mem_drop (List.mem_of_mem_take he)
    have hmem := (List.mem_insertionSort _).mp hsorted
    exact (h.rows _ _ (AList.mem_lookup_iff.mpr
      (List.mem_filter.mp hmem).1)).healed_eq
  unfold Account.afterList
  revert hpage
  induction a.page limit offset with
  | nil =>
      exact fun _ => rfl
  | cons e rest ih =>
      intro hpage
      rw [List.foldl_cons, hpage e List.mem_cons_self]
      exact ih (fun e' he' => hpage e' (List.mem_cons_of_mem _ he'))

end Listing

section Reading

variable {a : Account} {channelId : Nat} {channelType : Int}

/-- What a cursor does to the part of the account that it is about. -/
theorem projectChannelReadCursor_spec (s : ReadState) (lastReadPts : Nat) (now : Int) :
    let s' := s.projectChannelReadCursor lastReadPts now
    s'.base.message = s.base.message ∧
      (s' = s ∨
        s.keepPts < lastReadPts ∧
          (∃ x, s'.channelExtra = some x ∧ x.keepPts = lastReadPts) ∧
          s'.channel = s.channel.map (fun c =>
            { c with
              unreadCount := max 0 (c.unreadCount - s.base.message.rows.countP
                (fun r => s.passed s.keepPts lastReadPts r &&
                  r.fromUid != s.uid)) })) := by
  unfold ReadState.projectChannelReadCursor
  dsimp only
  by_cases hbehind : max s.keepPts lastReadPts = s.keepPts
  · rw [if_pos hbehind]
    exact ⟨rfl, Or.inl rfl⟩
  · have hmax : max s.keepPts lastReadPts = lastReadPts := by omega
    rw [if_neg hbehind, hmax]
    refine ⟨rfl, Or.inr ⟨by omega, ?_, rfl⟩⟩
    cases hx : s.channelExtra with
    | none =>
        exact ⟨_, rfl, rfl⟩
    | some x =>
        refine ⟨_, rfl, ?_⟩
        have hkeep : s.keepPts = x.keepPts := by
          simp [ReadState.keepPts, hx]
        dsimp only [cursorExtra]
        omega

/-- A cursor writes the row that its part of the account then has. -/
theorem lookup_projectChannelReadCursor
    {lastReadPts : Nat} {now : Int} {c : ChannelRecord} {row : ChannelRow}
    (hc : a.channel.lookup channelId = some c)
    (hrow : ((a.view channelId channelType).projectChannelReadCursor lastReadPts
      now).channel = some row) :
    (a.projectChannelReadCursor channelId channelType lastReadPts
      now).channel.lookup channelId = some { c with toChannelRow := row } := by
  unfold Account.projectChannelReadCursor
  dsimp only
  rw [hc, hrow]
  exact AList.lookup_insert _

theorem Account.Counted.projectChannelReadCursor
    (h : a.Counted) {lastReadPts : Nat}
    (hok : a.CursorKeeps channelId channelType lastReadPts) (now : Int) :
    (a.projectChannelReadCursor channelId channelType lastReadPts now).Counted := by
  obtain ⟨hmessage, hcases⟩ := projectChannelReadCursor_spec
    (a.view channelId channelType) lastReadPts now
  have hothers : ∀ other, other ≠ channelId →
      (a.projectChannelReadCursor channelId channelType lastReadPts
        now).channel.lookup other = a.channel.lookup other := by
    intro other hne
    unfold Account.projectChannelReadCursor
    dsimp only
    split
    · exact AList.lookup_insert_ne hne
    · rfl
  have hmessages : ∀ other type,
      (a.projectChannelReadCursor channelId channelType lastReadPts now).messages
        other type = a.messages other type := by
    intro other type
    exact congrArg (fun t : Table MessageRow =>
      t.rows.filter (a.view other type).has) hmessage
  have hextra : ∀ other type, ¬ (other = channelId ∧ type = channelType) →
      (a.projectChannelReadCursor channelId channelType lastReadPts
        now).channelExtra other type = a.channelExtra other type := by
    intro other type hne
    exact if_neg hne
  have hlookup : ∀ c', (a.projectChannelReadCursor channelId channelType lastReadPts
      now).channel.lookup channelId = some c' →
      ∃ c, a.channel.lookup channelId = some c ∧ c'.unreadCount ≤ c.unreadCount ∧
        (a.projectChannelReadCursor channelId channelType lastReadPts
          now).RowCounted channelId c' := by
    intro c' hc'
    cases hc : a.channel.lookup channelId with
    | none =>
        unfold Account.projectChannelReadCursor at hc'
        dsimp only at hc'
        rw [hc] at hc'
        cases hc.symm.trans hc'
    | some c =>
        have hcounted := h.rows channelId c hc
        have hview : (a.view channelId channelType).channel = some c.toChannelRow := by
          simp [Account.view, hc]
        refine ⟨c, rfl, ?_⟩
        rcases hcases with hsame | ⟨hbehind, ⟨x, hx, hkeep⟩, hmoved⟩
        · have hrow := lookup_projectChannelReadCursor hc
            ((congrArg ReadState.channel hsame).trans hview)
          obtain rfl : c = c' := Option.some.inj (hrow.symm.trans hc')
          refine ⟨Int.le_refl _, hcounted.congr (hmessages _ _) ?_⟩
          by_cases htype : c.channelType = channelType
          · subst htype
            refine (if_pos ⟨rfl, rfl⟩).trans ?_
            exact congrArg ReadState.channelExtra hsame
          · exact hextra _ _ (fun hsame => htype hsame.2)
        · rw [hview, Option.map_some] at hmoved
          have hrow := lookup_projectChannelReadCursor hc hmoved
          obtain rfl := Option.some.inj (hrow.symm.trans hc')
          have hnonneg := hcounted.1
          refine ⟨by dsimp only; omega, by dsimp only; omega, fun hcount => ?_⟩
          dsimp only at hcount
          obtain ⟨hlisted, hcaught⟩ := hcounted.2 (by omega)
          refine ⟨(listed_congr (hmessages _ _) rfl rfl rfl).trans hlisted, ?_⟩
          by_cases htype : c.channelType = channelType
          · subst htype
            -- a cursor that caught up has passed all that the row counted
            rw [← Bool.not_eq_true]
            intro hup
            obtain ⟨x', hx', hpos, hle⟩ := caughtUp_iff.mp hup
            obtain rfl : x = x' := Option.some.inj
              (hx.symm.trans ((if_pos ⟨rfl, rfl⟩).symm.trans hx'))
            rw [maxPts_congr (hmessages _ _)] at hpos hle
            rw [hkeep] at hle
            have hpassed := hok c hc rfl hbehind hpos hle
            exact hcount (max_eq_left (by omega))
          · rw [caughtUp_congr (hmessages _ _)
              (hextra _ _ (fun hsame => htype hsame.2))]
            exact hcaught
  refine h.write (n := 0) channelId
    ⟨hothers, fun other _ type => hmessages other type,
      fun other hne type => hextra other type (fun hsame => hne hsame.1)⟩
    ?_ ?_ ?_ ?_
  · intro c' hc'
    obtain ⟨_, _, _, hcounted⟩ := hlookup c' hc'
    exact hcounted
  · intro r hr
    have hrows : (a.projectChannelReadCursor channelId channelType lastReadPts
        now).base.message = a.base.message := hmessage
    rw [hrows] at hr
    exact h.stamps r hr
  · cases hc' : (a.projectChannelReadCursor channelId channelType lastReadPts
        now).channel.lookup channelId with
    | none =>
        have hnonneg := h.storedAt_nonneg channelId
        simpa [Account.storedAt, amount, hc'] using hnonneg
    | some c' =>
        obtain ⟨c, hc, hle, -⟩ := hlookup c' hc'
        rw [storedAt_eq hc, storedAt_eq hc']
        omega
  · have hfits := h.fits
    omega

end Reading

section Syncing

variable {a : Account} {item : ChannelItem} {c : ChannelRecord}

/-- Without a row that is shown, the entity's count is the row's. -/
theorem toRow_none (item : ChannelItem) (materialized : Option Nat) :
    (item.toRow none materialized).unreadCount = max 0 (item.unreadCount.getD 0) ∧
      (item.toRow none materialized).lastMsgTimestamp =
        item.lastMsgTimestamp.getD 0 :=
  ⟨rfl, rfl⟩

/-- A row that is shown keeps its count, or loses it to the server's zero. -/
theorem toRow_some (item : ChannelItem) (materialized : Option Nat) :
    ((item.toRow (some c) materialized).unreadCount = 0 ∨
      (item.toRow (some c) materialized).unreadCount = max 0 c.unreadCount) ∧
      (0 < c.lastMsgTimestamp →
        (item.toRow (some c) materialized).lastMsgTimestamp =
          c.lastMsgTimestamp) := by
  refine ⟨?_, fun hpos => ?_⟩
  · unfold ChannelItem.toRow syncedUnread
    dsimp only [Option.map_some]
    split
    · exact Or.inl rfl
    · exact Or.inr rfl
  · unfold ChannelItem.toRow resolveChannelLastMessageFields
    dsimp only
    rw [if_pos (Or.inr hpos)]

/-- An upsert of a channel row touches that row only. -/
theorem upsertChannel_touches (a : Account) (channelId : Nat) (input : ChannelRecord) :
    a.Touches (a.upsertChannel channelId input) channelId :=
  ⟨fun _ hne => lookup_upsertChannel_of_ne _ _ _ hne, fun _ _ _ => rfl,
    fun _ _ _ => rfl⟩

/-- A row that stores the time it was read with is read with it again. -/
theorem lastTimestamp_stored
    {channelId : Nat} {c' : ChannelRecord} (htype : c'.channelType = c.channelType)
    (htimestamp : c'.lastMsgTimestamp = a.lastTimestamp channelId c) :
    a.lastTimestamp channelId c' = a.lastTimestamp channelId c := by
  unfold Account.lastTimestamp at *
  rw [htype, htimestamp]
  cases (a.view channelId c.channelType).previewRow with
  | none =>
      rfl
  | some r =>
      rfl

/-- What the writer of a channel row has to show. -/
theorem Account.Counted.upsertChannel
    (h : a.Counted) {channelId : Nat} {input : ChannelRecord} {n : Int}
    (hrow : ∀ c', (a.upsertChannel channelId input).channel.lookup channelId = some c' →
      a.RowCounted channelId c' ∧ c'.unreadCount ≤ a.storedAt channelId + n)
    (hroom : a.stored + n < 2 ^ 31) :
    (a.upsertChannel channelId input).Counted := by
  have hlookup := lookup_upsertChannel a channelId input
  refine h.write channelId (upsertChannel_touches _ _ _)
    (fun c' hc' => (hrow c' hc').1.congr rfl rfl) h.stamps ?_ hroom
  rw [storedAt_eq hlookup]
  exact (hrow _ hlookup).2

/-- The server's count of a channel whose row was not shown. -/
theorem Account.BaselineKeeps.rowCounted
    (hok : a.BaselineKeeps item) {row : ChannelRecord}
    (htype : row.channelType = item.channelType)
    (hcount : row.unreadCount = max 0 (item.unreadCount.getD 0))
    (htimestamp : row.lastMsgTimestamp = item.lastMsgTimestamp.getD 0)
    (hvisible : 0 < item.unreadCount.getD 0 → row.isDeleted = false) :
    a.RowCounted item.channelId row := by
  refine ⟨by omega, fun hne => ?_⟩
  have hpos : 0 < item.unreadCount.getD 0 := by omega
  obtain ⟨htime, hcaught, -⟩ := hok hpos
  rw [htype, listed_iff]
  refine ⟨⟨hvisible hpos, fun hdirect => ?_⟩, hcaught⟩
  unfold Account.lastTimestamp
  rw [htype, htimestamp]
  exact htime (htype.symm.trans hdirect)

theorem Account.BaselineKeeps.room
    (hok : a.BaselineKeeps item) (hfits : a.stored < 2 ^ 31) :
    a.stored + max 0 (item.unreadCount.getD 0) < 2 ^ 31 := by
  by_cases hpos : 0 < item.unreadCount.getD 0
  · have := (hok hpos).2.2
    omega
  · omega

/-- An entity for a row that is not shown. -/
theorem Account.Counted.applyHidden
    (h : a.Counted)
    (hhidden : ∀ c, a.channel.lookup item.channelId = some c → c.isDeleted = true)
    (hok : a.ItemKeeps item) :
    (a.upsertChannel item.channelId (item.toRow none none)).Counted := by
  have hnonneg := h.storedAt_nonneg item.channelId
  have hlookup := lookup_upsertChannel a item.channelId (item.toRow none none)
  unfold Account.ItemKeeps at hok
  cases hc : a.channel.lookup item.channelId with
  | none =>
      rw [hc] at hok hlookup
      refine h.upsertChannel (fun c' hc' => ?_) (hok.room h.fits)
      obtain rfl := Option.some.inj (hlookup.symm.trans hc')
      refine ⟨hok.rowCounted rfl rfl rfl (fun _ => rfl), ?_⟩
      rw [(toRow_none item none).1]
      omega
  | some c =>
      rw [hc] at hok hlookup
      dsimp only at hok hlookup
      rw [hhidden c hc, if_pos rfl] at hok
      by_cases hversion : c.version ≤ item.version
      · obtain ⟨hbaseline, hnewer⟩ := hok hversion
        rw [overwrite_of_le hversion] at hlookup
        refine h.upsertChannel (fun c' hc' => ?_) (hbaseline.room h.fits)
        obtain rfl := Option.some.inj (hlookup.symm.trans hc')
        refine ⟨hbaseline.rowCounted rfl rfl rfl (fun hpos => ?_), ?_⟩
        · exact if_pos (hnewer hpos)
        · refine Int.le_trans (Int.le_of_eq (toRow_none item none).1) ?_
          omega
      · rw [overwrite_of_lt (Int.not_le.mp hversion)] at hlookup
        refine h.upsertChannel (n := 0) (fun c' hc' => ?_) (by have := h.fits; omega)
        obtain rfl := Option.some.inj (hlookup.symm.trans hc')
        rw [storedAt_eq hc]
        exact ⟨h.rows _ _ hc, by omega⟩

/-- An entity for a row that is shown, once the row was read. -/
theorem Account.Counted.applyVisible
    (h : a.Counted) (hc : a.channel.lookup item.channelId = some c)
    (hvisible : c.isDeleted = false) (hok : a.ItemKeeps item)
    {row : ChannelRecord} (hcount : row.unreadCount = c.unreadCount)
    (htimestamp : row.lastMsgTimestamp = a.lastTimestamp item.channelId c)
    (materialized : Option Nat) :
    (a.upsertChannel item.channelId (item.toRow (some row) materialized)).Counted := by
  have hlookup := lookup_upsertChannel a item.channelId
    (item.toRow (some row) materialized)
  have hcounted := h.rows _ c hc
  obtain ⟨hunread, hlast⟩ := toRow_some (c := row) item materialized
  have hle : (item.toRow (some row) materialized).unreadCount ≤ c.unreadCount := by
    have := hcounted.1
    omega
  unfold Account.ItemKeeps at hok
  rw [hc] at hok hlookup
  dsimp only at hok hlookup
  rw [if_neg (by simp [hvisible])] at hok
  refine h.upsertChannel (n := 0) (fun c' hc' => ?_) (by have := h.fits; omega)
  obtain rfl := Option.some.inj (hlookup.symm.trans hc')
  rw [storedAt_eq hc]
  by_cases hversion : c.version ≤ item.version
  · rw [overwrite_of_le hversion]
    have htype := hok hversion
    refine ⟨⟨?_, fun hne => ?_⟩, ?_⟩
    · dsimp only
      omega
    · dsimp only at hne
      obtain ⟨hlisted, hcaught⟩ := hcounted.2 (by omega)
      obtain ⟨-, htime⟩ := listed_iff.mp hlisted
      refine ⟨listed_iff.mpr ⟨?_, fun hdirect => ?_⟩, ?_⟩
      · dsimp only
        rw [hvisible, ite_self]
      · have hpos := htime (htype.trans hdirect)
        have hstored := hlast (by omega)
        exact hpos.trans_eq
          (lastTimestamp_stored htype.symm (hstored.trans htimestamp)).symm
      · have hcaught' : a.caughtUp item.channelId item.channelType = false := by
          rw [← htype]
          exact hcaught
        exact hcaught'
    · dsimp only
      omega
  · rw [overwrite_of_lt (Int.not_le.mp hversion)]
    exact ⟨hcounted, by omega⟩

theorem Account.Counted.applyChannelItem
    (h : a.Counted) (hok : a.ItemKeeps item) :
    (a.applyChannelItem item).Counted := by
  unfold Account.applyChannelItem
  dsimp only
  rw [h.afterRead_eq]
  cases hc : a.channel.lookup item.channelId with
  | none =>
      have hget : a.getChannelById item.channelId = none := by
        unfold Account.getChannelById
        rw [hc]
      rw [hget]
      exact h.applyHidden (by simp [hc]) hok
  | some c =>
      cases hvisible : c.isDeleted with
      | true =>
          rw [getChannelById_hidden hc hvisible]
          refine h.applyHidden (fun c' hc' => ?_) hok
          obtain rfl := Option.some.inj (hc.symm.trans hc')
          exact hvisible
      | false =>
          have hcounted := h.rows _ c hc
          obtain ⟨messageId, content, hget⟩ := getChannelById_visible hc hvisible
          rw [hcounted.unread_eq] at hget
          rw [hget]
          refine h.applyVisible hc hvisible hok ?_ ?_ _ <;> rfl

end Syncing

section Storing

variable {a : Account} {input : UpsertRemoteMessageInput} {now : Int}

theorem filter_map_of_fixed
    {rows : List MessageRow} {f : MessageRow → MessageRow} {p : MessageRow → Bool}
    (h : ∀ r ∈ rows, p (f r) = p r ∧ (p r = true → f r = r)) :
    (rows.map f).filter p = rows.filter p := by
  induction rows with
  | nil =>
      rfl
  | cons r rows ih =>
      obtain ⟨hp, hfixed⟩ := h r List.mem_cons_self
      have hrest := ih (fun r' hr' => h r' (List.mem_cons_of_mem _ hr'))
      rw [List.map_cons, List.filter_cons, List.filter_cons, hp, hrest]
      split
      · rename_i hr
        rw [hfixed hr]
      · rfl

/-- The row that an upsert writes to, and the one it drops, are own copies. -/
theorem Account.OwnCopies.target
    (hown : a.OwnCopies input) (hpos : 0 < input.serverMessageId)
    {base : Table MessageRow} {row : MessageRow}
    (htarget : UpsertTarget (some a.uid) input a.base base row)
    {p : MessageRow → Bool}
    (hp : ∀ r : MessageRow, r.channelId = input.channelId →
      r.channelType = input.channelType → p r = false) :
    (row.channelId = input.channelId ∧ row.channelType = input.channelType) ∧
      base.rows.filter p = a.base.message.rows.filter p := by
  cases htarget with
  | byServerId row hrow hfresh hlocal =>
      exact ⟨hown row (Or.inl hrow), rfl⟩
  | byLocalId row hnone hrow hfresh =>
      exact ⟨hown row (Or.inr hrow), rfl⟩
  | merge drop keep hdrop hfresh hkeep hne =>
      refine ⟨hown row (Or.inr hkeep), ?_⟩
      obtain ⟨hmem, -⟩ := (a.base.byServerId_eq_some_iff hpos _).mp hdrop
      have hdropped := hown drop (Or.inl hdrop)
      unfold Table.deleteWhere
      dsimp only
      rw [List.filter_filter]
      refine List.filter_congr (fun r hr => ?_)
      by_cases hid : r.id = drop.id
      · obtain rfl := a.base.message.rowid_inj hr hmem hid
        simp [hp _ hdropped.1 hdropped.2]
      · simp [hid]

/-- An upsert leaves the messages of every other channel as they were. -/
theorem Account.OwnCopies.filter_eq
    (hown : a.OwnCopies input) {t : Table MessageRow}
    (h : UpsertedMessages (some a.uid) input now a.base t)
    {p : MessageRow → Bool}
    (hp : ∀ r : MessageRow, r.channelId = input.channelId →
      r.channelType = input.channelType → p r = false) :
    t.rows.filter p = a.base.message.rows.filter p := by
  cases h with
  | same t hsame =>
      rw [hsame]
  | dropped base row hpos htarget =>
      exact (hown.target hpos htarget hp).2
  | written base t row hpos htarget ht =>
      obtain ⟨hrow, hbase⟩ := hown.target hpos htarget hp
      rw [(Table.rows_of_update ht).1, ← hbase]
      refine filter_map_of_fixed (fun r hr => ?_)
      by_cases hid : r.id = row.id
      · obtain rfl := base.rowid_inj hr (htarget.mem hpos).1 hid
        have hold := hp r hrow.1 hrow.2
        have hnew : p (input.overwrite now r) = false := hp _ rfl rfl
        simp [hold, hnew]
      · simp [hid]
  | inserted t hpos hnone hnoneLocal ht =>
      have hnew : p (input.toRow now a.base.message.nextRowid) = false := hp _ rfl rfl
      rw [(Table.rows_of_insert ht).2.1, List.filter_append]
      simp [hnew]

theorem sentAtMs_pos (timestamp : Int) (hnow : 0 < now) :
    0 < sentAtMs timestamp now := by
  unfold sentAtMs
  split
  · omega
  · split <;> omega

/-- Every row keeps or gets a positive send time. -/
theorem createdAt_pos
    (hstamps : ∀ r ∈ a.base.message.rows, 0 < r.createdAt) (hnow : 0 < now)
    {t : Table MessageRow}
    (h : UpsertedMessages (some a.uid) input now a.base t) :
    ∀ r ∈ t.rows, 0 < r.createdAt := by
  intro r hr
  have hfound : t.byRowid r.id = some r :=
    (t.byRowid_eq_some_iff _ _).mpr ⟨hr, rfl⟩
  have hsent := sentAtMs_pos input.timestamp hnow
  rcases h.row_cases hfound with hold | ⟨_, row, _, _, _, hold, hnew⟩ | ⟨_, hnew⟩
  · exact hstamps r ((a.base.message.byRowid_eq_some_iff _ _).mp hold).1
  · have hrow := hstamps row ((a.base.message.byRowid_eq_some_iff _ _).mp hold).1
    rw [hnew]
    dsimp only [UpsertRemoteMessageInput.overwrite]
    split
    · exact hsent
    · split
      · exact hsent
      · exact hrow
  · rw [hnew]
    exact hsent

/-- After an upsert the channel holds the message, and a new one was not there. -/
theorem Account.OwnCopies.stored
    (hown : a.OwnCopies input) {upserted : UpsertRemoteMessageResult} {base : Store}
    (hrun : upsertRemoteMessageWithResult (some a.uid) input (.calm now) a.base =
      (.ok upserted, base)) :
    (∃ r ∈ base.message.rows, r.channelId = input.channelId ∧
        r.channelType = input.channelType ∧
        (upserted.insertedNew = true → r.pts = input.pts)) ∧
      (upserted.insertedNew = true →
        a.base.byServerId input.serverMessageId = none ∧
          a.base.byInputLocalId (some a.uid) input = none) := by
  cases upsert_outcome hrun with
  | stale row hpos hrow hstale =>
      refine ⟨⟨row, ?_, ?_⟩, fun hnew => absurd hnew Bool.false_ne_true⟩
      · rcases hrow with hrow | ⟨-, hrow⟩
        · exact ((a.base.byServerId_eq_some_iff hpos _).mp hrow).1
        · exact (Store.mem_of_byInputLocalId hrow).1
      · obtain ⟨hid, htype⟩ := hown row (hrow.imp_right (fun h => h.2))
        exact ⟨hid, htype, fun hnew => absurd hnew Bool.false_ne_true⟩
  | written base t row hpos htarget ht =>
      refine ⟨⟨input.overwrite now row, ?_, rfl, rfl, fun _ => rfl⟩,
        fun hnew => absurd hnew Bool.false_ne_true⟩
      rw [Store.takeRevoke_message]
      dsimp only
      rw [(Table.rows_of_update ht).1, Table.mem_updatedRows]
      exact ⟨row, (htarget.mem hpos).1, if_pos (by simp)⟩
  | inserted t hpos hnone hnoneLocal ht =>
      refine ⟨⟨input.toRow now a.base.message.nextRowid, ?_, rfl, rfl, fun _ => rfl⟩,
        fun _ => ⟨hnone, hnoneLocal⟩⟩
      rw [Store.takeRevoke_message]
      dsimp only
      rw [(Table.rows_of_insert ht).2.1]
      exact List.mem_append_right _ (List.mem_singleton.mpr rfl)

end Storing

section Arriving

variable {a a' : Account} {channelId : Nat} {channelType : Int}

/-- What the row of a channel is after a message came to it. -/
theorem Account.Counted.updatedRow
    (h : a.Counted) (hrows : a'.channel = a.channel)
    (htype : ∀ c, a.channel.lookup channelId = some c → c.channelType = channelType)
    (content : String) {timestampMs : Int} (messageId : Nat) (fromUid : Option Nat)
    {bumpUnread : Bool}
    (hcaught : bumpUnread = true → a'.caughtUp channelId channelType = false)
    (hback : bumpUnread = true → ∀ c, a.channel.lookup channelId = some c →
      c.isDeleted = true → c.version ≤ 0 → c.lastMsgTimestamp < timestampMs)
    {c' : ChannelRecord}
    (hc' : (a'.updateChannelLastMessage channelId channelType content timestampMs
      messageId fromUid bumpUnread).channel.lookup channelId = some c') :
    c'.unreadCount ≤ a.storedAt channelId + (if bumpUnread then 1 else 0) ∧
      c'.channelType = channelType ∧ 0 ≤ c'.unreadCount ∧
      (c'.unreadCount ≠ 0 →
        c'.isDeleted = false ∧ a'.caughtUp channelId channelType = false) := by
  have hnonneg := h.storedAt_nonneg channelId
  cases hc : a.channel.lookup channelId with
  | none =>
      have hnone : a'.channel.lookup channelId = none := by
        rw [hrows, hc]
      have hrow := updateChannelLastMessage_none hnone channelType content timestampMs
        messageId fromUid bumpUnread
      obtain rfl := Option.some.inj (hrow.symm.trans hc')
      cases bumpUnread with
      | true =>
          exact ⟨by simpa using hnonneg, rfl, by simp, fun _ => ⟨rfl, hcaught rfl⟩⟩
      | false =>
          exact ⟨by simpa using hnonneg, rfl, by simp, fun hne => absurd rfl hne⟩
  | some c =>
      have hcounted := h.rows channelId c hc
      have hc₁ : a'.channel.lookup channelId = some c := by
        rw [hrows, hc]
      rw [storedAt_eq hc] at hnonneg ⊢
      cases hvisible : c.isDeleted with
      | true =>
          have hzero := hcounted.eq_zero hvisible
          have hrow := updateChannelLastMessage_hidden hc₁ hvisible channelType content
            timestampMs messageId fromUid bumpUnread
          by_cases hversion : c.version ≤ 0
          · rw [if_pos hversion] at hrow
            obtain rfl := Option.some.inj (hrow.symm.trans hc')
            cases bumpUnread with
            | true =>
                have hnewer := hback rfl c hc hvisible hversion
                refine ⟨by simpa using hnonneg, rfl, by simp, fun _ => ⟨?_, hcaught rfl⟩⟩
                exact decide_eq_false (Int.not_le.mpr hnewer)
            | false =>
                exact ⟨by simpa using hnonneg, rfl, by simp, fun hne => absurd rfl hne⟩
          · rw [if_neg hversion] at hrow
            obtain rfl := Option.some.inj (hrow.symm.trans hc')
            refine ⟨?_, htype _ hc, hnonneg, fun hne => absurd hzero hne⟩
            split <;> omega
      | false =>
          obtain ⟨timestamp, previous, preview, hrow⟩ :=
            updateChannelLastMessage_visible hc₁ hvisible channelType content
              timestampMs messageId fromUid bumpUnread
          obtain rfl := Option.some.inj (hrow.symm.trans hc')
          obtain ⟨hpos, hle⟩ := unread_le a' channelId c
          rw [max_eq_right hcounted.1] at hle
          cases bumpUnread with
          | true =>
              have hsucc : saturatingSucc (a'.unread channelId c) ≤
                  a'.unread channelId c + 1 := Int.min_le_left _ _
              have hsucc' : 0 ≤ saturatingSucc (a'.unread channelId c) :=
                le_min (by omega) (by decide)
              dsimp only
              rw [if_pos rfl, if_pos rfl]
              exact ⟨by omega, rfl, hsucc', fun _ => ⟨hvisible, hcaught rfl⟩⟩
          | false =>
              refine ⟨by simpa using hle, rfl, hpos, fun hne => ⟨hvisible, ?_⟩⟩
              rw [← htype c hc, ← Bool.not_eq_true]
              intro hup
              exact hne ((unread_eq a' channelId c).trans (if_pos hup))

/-- The touch of a message: its own row, its own messages, and no cursor. -/
theorem Account.Counted.updateChannelLastMessage
    (h : a.Counted) (htouch : a.Touches a' channelId) (hrows : a'.channel = a.channel)
    (hstamps : ∀ r ∈ a'.base.message.rows, 0 < r.createdAt)
    (hstored : a'.messages channelId channelType ≠ [])
    (htype : ∀ c, a.channel.lookup channelId = some c → c.channelType = channelType)
    (content : String) (timestampMs : Int) (messageId : Nat) (fromUid : Option Nat)
    {bumpUnread : Bool}
    (hcaught : bumpUnread = true → a'.caughtUp channelId channelType = false)
    (hback : bumpUnread = true → ∀ c, a.channel.lookup channelId = some c →
      c.isDeleted = true → c.version ≤ 0 → c.lastMsgTimestamp < timestampMs)
    (hroom : bumpUnread = true → a.stored + 1 < 2 ^ 31) :
    (a'.updateChannelLastMessage channelId channelType content timestampMs messageId
      fromUid bumpUnread).Counted := by
  obtain ⟨hothers, -, hbase, hextra⟩ := updateChannelLastMessage_others a' channelId
    channelType content timestampMs messageId fromUid bumpUnread
  have hupdated := fun (c' : ChannelRecord)
    (hc' : (a'.updateChannelLastMessage channelId channelType content timestampMs
      messageId fromUid bumpUnread).channel.lookup channelId = some c') =>
    h.updatedRow hrows htype content messageId fromUid hcaught hback hc'
  revert hothers hbase hextra hupdated
  generalize a'.updateChannelLastMessage channelId channelType content timestampMs
    messageId fromUid bumpUnread = a''
  intro hothers hbase hextra hupdated
  have hmessages : ∀ other type, a''.messages other type = a'.messages other type := by
    intro other type
    unfold Account.messages
    rw [hbase]
    rfl
  refine h.write (n := if bumpUnread then 1 else 0) channelId
    ⟨fun other hne => (hothers other hne).trans (htouch.row other hne),
      fun other hne type => (hmessages other type).trans
        (htouch.messages other hne type),
      fun other hne type => ?_⟩ (fun c' hc' => ?_) ?_ ?_ ?_
  · rw [hextra]
    exact htouch.channelExtra other hne type
  · obtain ⟨-, htype', hpos, hcount⟩ := hupdated c' hc'
    refine ⟨hpos, fun hne => ?_⟩
    obtain ⟨hvisible, hbehind⟩ := hcount hne
    rw [htype', caughtUp_congr (hmessages _ _) (by rw [hextra])]
    refine ⟨listed_iff.mpr ⟨hvisible, fun _ => ?_⟩, hbehind⟩
    refine lastTimestamp_pos ?_ ?_
    · rw [hbase]
      exact hstamps
    · rw [htype', hmessages]
      exact hstored
  · rw [hbase]
    exact hstamps
  · cases hc' : a''.channel.lookup channelId with
    | none =>
        have hnonneg := h.storedAt_nonneg channelId
        have hzero : a''.storedAt channelId = 0 := by
          simp [Account.storedAt, amount, hc']
        rw [hzero]
        split <;> omega
    | some c' =>
        rw [storedAt_eq hc']
        exact (hupdated c' hc').1
  · have hfits := h.fits
    cases bumpUnread with
    | true =>
        exact hroom rfl
    | false =>
        simpa using hfits

theorem Account.Counted.receive
    (h : a.Counted) {input : UpsertRemoteMessageInput} {timestamp now : Int}
    {bumpUnreadOnIncoming : Bool} (hnow : 0 < now)
    (hok : a.ArrivalKeeps input timestamp bumpUnreadOnIncoming) (content : String) :
    (a.receive input content timestamp bumpUnreadOnIncoming now).Counted := by
  unfold Account.receive
  by_cases hpos : 0 < input.serverMessageId
  swap
  · unfold upsertRemoteMessageWithResult
    rw [if_pos (by omega)]
    exact h
  obtain ⟨upserted, base, hrun⟩ := upsert_calm_ok input (some a.uid) a.base now hpos
  have hmessages := (upsert_messages hrun).1
  obtain ⟨⟨r, hr, hid, htype, hpts⟩, hnew⟩ := hok.copies.stored hrun
  rw [hrun]
  dsimp only
  have hmem : r ∈ Account.messages { a with base := base } input.channelId
      input.channelType := mem_messages.mpr ⟨hr, hid, htype⟩
  have hcounts : (bumpUnreadOnIncoming && input.fromUid != a.uid &&
        upserted.insertedNew && (Account.view { a with base := base } input.channelId
          input.channelType).isAfterReadCursor input.pts) = true →
      a.countsNew input bumpUnreadOnIncoming = true ∧
        upserted.insertedNew = true ∧
        (a.view input.channelId input.channelType).isAfterReadCursor input.pts =
          true := by
    intro hbump
    simp only [Bool.and_eq_true] at hbump
    obtain ⟨⟨⟨hrealtime, hother⟩, hinserted⟩, hafter⟩ := hbump
    obtain ⟨hnone, hnoneLocal⟩ := hnew hinserted
    refine ⟨?_, hinserted, hafter⟩
    have hafter' : (a.view input.channelId input.channelType).isAfterReadCursor
        input.pts = true := hafter
    simp [Account.countsNew, hrealtime, hother, hnone, hnoneLocal, hafter']
  refine h.updateChannelLastMessage ?_ ?_ ?_ ?_ hok.channelType _ _ _ _
    (fun hbump => ?_) (fun hbump => hok.hidden (hcounts hbump).1)
    (fun hbump => hok.room (hcounts hbump).1)
  · refine ⟨fun _ _ => rfl, fun other hne type => ?_, fun _ _ _ => rfl⟩
    refine hok.copies.filter_eq hmessages (fun r hid _ => ?_)
    simp [ReadState.has, Account.view, hid, Ne.symm hne]
  · rfl
  · exact createdAt_pos h.stamps hnow hmessages
  · exact List.ne_nil_of_mem hmem
  · obtain ⟨-, hinserted, hafter⟩ := hcounts hbump
    rw [← Bool.not_eq_true]
    intro hup
    obtain ⟨x, hx, -, hle⟩ := caughtUp_iff.mp hup
    have hmax : r.pts ≤ (Account.view { a with base := base } input.channelId
        input.channelType).maxPts :=
      ReadState.le_maxPts hr (by simp [ReadState.has, Account.view, hid, htype])
    have hextra : (a.view input.channelId input.channelType).channelExtra = some x := hx
    unfold ReadState.isAfterReadCursor at hafter
    rw [hextra] at hafter
    have hbeyond := of_decide_eq_true hafter
    rw [hpts hinserted] at hmax
    omega

end Arriving

section Runs

variable {a : Account}

/-- One step that meets its condition. -/
theorem Account.Counted.step
    (h : a.Counted) {e : Int × ChannelEvent} (hok : a.StepKeeps e) :
    (a.step e).Counted := by
  obtain ⟨now, e⟩ := e
  cases e with
  | message input content timestamp bumpUnreadOnIncoming =>
      exact h.receive hok.1 hok.2 content
  | readCursor channelId channelType lastReadPts =>
      exact h.projectChannelReadCursor hok now
  | hide channelId hidden =>
      exact h.setChannelHidden hidden hok
  | delete channelId =>
      exact h.deleteChannelLocal hok
  | channelItem item =>
      exact h.applyChannelItem hok
  | list limit offset =>
      dsimp only [Account.step]
      rw [h.afterList_eq]
      exact h

/-- The account of a user who has just logged in. -/
def freshAccount
    (uid : Nat) (user : Nat → Option UserNames) (groupName : Nat → Option String)
    (groupMember : Nat → List GroupMember) : Account where
  uid := uid
  base := .empty
  user := user
  groupName := groupName
  groupMember := groupMember
  channel := ∅
  channelExtra _ _ := none

theorem freshAccount_counted
    (uid : Nat) (user : Nat → Option UserNames) (groupName : Nat → Option String)
    (groupMember : Nat → List GroupMember) :
    (freshAccount uid user groupName groupMember).Counted where
  rows channelId c hc := by
    simp [freshAccount] at hc
  stamps r hr := absurd hr (by simp [freshAccount, Store.empty])
  fits := by
    simp [Account.stored, total, freshAccount]

/--
In every run from a fresh account whose steps all meet their condition, the badge is
the sum over the list in every state reached.
-/
theorem total_unread_agrees
    (uid : Nat) (user : Nat → Option UserNames) (groupName : Nat → Option String)
    (groupMember : Nat → List GroupMember) (events : List (Int × ChannelEvent))
    (hok : EventRun.Guarded Account.step Account.StepKeeps
      (freshAccount uid user groupName groupMember) events) :
    (EventRun.run Account.step (freshAccount uid user groupName groupMember)
      events).BadgeAgrees := by
  have hrun := hok.invariant Account.Counted (fun _ _ h hstep => h.step hstep)
    (freshAccount_counted uid user groupName groupMember)
  exact hrun.badgeAgrees

/-- User 1 before the first message. -/
def sampleAccount : Account :=
  freshAccount 1 (fun _ => none) (fun _ => none) (fun _ => [])

/-- User 2 writes to user 1. -/
def sampleArrival : Int × ChannelEvent :=
  (1, .message (.text 900 0 10 2 7 "hi") "hi" 3 true)

theorem total_unread_agrees_read :
    (EventRun.run Account.step sampleAccount
      [sampleArrival, (2, .readCursor 10 1 7), (3, .hide 10 true)]).BadgeAgrees := by
  refine total_unread_agrees 1 (fun _ => none) (fun _ => none) (fun _ => []) _
    ⟨⟨by decide, ⟨?_, ?_, ?_, ?_⟩⟩, ?_, fun _ => ?_, trivial⟩
  · rintro r (hr | hr) <;> cases hr
  · intro c hc
    cases hc
  · intro _ c hc
    cases hc
  · decide
  · intro c hc _ _ _ _
    have hcount : ((Account.step sampleAccount sampleArrival).channel.lookup 10).map
        (fun c => c.unreadCount) = some 1 := by
      decide +kernel
    have hmap := congrArg (Option.map (fun c : ChannelRecord => c.unreadCount)) hc
    have hone : c.unreadCount = 1 := Option.some.inj (hmap.symm.trans hcount)
    have hpassed : ((Account.step sampleAccount sampleArrival).view 10
        1).base.message.rows.countP (fun r =>
          ((Account.step sampleAccount sampleArrival).view 10 1).passed
            ((Account.step sampleAccount sampleArrival).view 10 1).keepPts 7 r &&
          r.fromUid != 1) = 1 := by
      decide +kernel
    rw [hone]
    exact Int.ofNat_le.mpr (Nat.le_of_eq hpassed.symm)
  · decide +kernel

/-- Hiding a channel with an unread message leaves a badge for an empty list. -/
theorem total_unread_hidden :
    let a := EventRun.run Account.step sampleAccount
      [sampleArrival, (2, .hide 10 true)]
    a.getTotalUnreadCount false = 1 ∧ a.listChannels 50 0 = [] ∧
      a.channel.entries.length = 1 ∧ ¬ a.BadgeAgrees := by
  have hrun : (EventRun.run Account.step sampleAccount
        [sampleArrival, (2, .hide 10 true)]).getTotalUnreadCount false = 1 ∧
      (EventRun.run Account.step sampleAccount
        [sampleArrival, (2, .hide 10 true)]).listChannels 50 0 = [] ∧
      (EventRun.run Account.step sampleAccount
        [sampleArrival, (2, .hide 10 true)]).channel.entries.length = 1 := by
    decide +kernel
  obtain ⟨htotal, hlist, hlength⟩ := hrun
  refine ⟨htotal, hlist, hlength, fun hagrees => ?_⟩
  have hsum := hagrees false 50 (by rw [hlength]; decide)
  rw [htotal, hlist] at hsum
  exact absurd hsum (by decide)

end Runs

end PrivchatSdk.Channels
