import Mathlib
import PrivchatSdk.Lib.SortedWindow
import PrivchatSdk.ReadCursor
import PrivchatSdk.SyncPayload
import PrivchatSdk.TimelineCache

/-!
# The window around a message

`list_messages` sorts the messages of a channel by four columns, and a missing value
sorts lowest.  `list_messages_around` reads the messages around an anchor in three
queries, and compares the same columns with a missing value taken for zero.  The
preview of a channel is chosen by the columns of `list_messages`.

Every window is a slice of the listing exactly if the two ways of reading a missing
value sort the channel alike (`listMessagesAround_window_iff`).  They do so where
every message has a `pts` and no server id is zero or negative
(`Timeline.sortsAlike_of_complete`).
-/

namespace PrivchatSdk

open SortedWindow

universe u

section Rows

variable {γ : Type u}

/-- A nullable column as a sort key. -/
def nullsLow : Option Int → WithBot Int
  | none => ⊥
  | some v => v

@[simp] theorem nullsLow_some_lt (v w : Int) :
    nullsLow (some v) < nullsLow (some w) ↔ v < w :=
  WithBot.coe_lt_coe

@[simp] theorem nullsLow_some_inj (v w : Int) :
    nullsLow (some v) = nullsLow (some w) ↔ v = w :=
  WithBot.coe_inj

/-- A row of table `message`: what a timeline is sorted by, and the other cells. -/
structure TimelineRow (γ : Type u) where
  id : Nat
  serverMessageId : Option Int
  pts : Option Int
  channelId : Nat
  channelType : Int
  cells : γ
  deriving DecidableEq

/-- Table `message`; its row ids are given out rising, up to the largest `i64`. -/
structure Timeline (γ : Type u) where
  rows : List (TimelineRow γ)
  sorted : rows.Pairwise (fun a b => a.id < b.id)
  id_lt : ∀ r ∈ rows, r.id < 2 ^ 63

/-- The order of the columns of `list_messages`, the first one first. -/
instance listingOrder : LinearOrder (Int ×ₗ WithBot Int ×ₗ WithBot Int ×ₗ Nat) :=
  @Prod.Lex.instLinearOrder Int (WithBot Int ×ₗ WithBot Int ×ₗ Nat) Int.instLinearOrder
    (@Prod.Lex.instLinearOrder (WithBot Int) (WithBot Int ×ₗ Nat)
      (@WithBot.linearOrder Int Int.instLinearOrder)
      (@Prod.Lex.instLinearOrder (WithBot Int) Nat
        (@WithBot.linearOrder Int Int.instLinearOrder) Nat.instLinearOrder))

/-- The order of the columns `k1` to `k4`. -/
instance aroundOrder : LinearOrder (Int ×ₗ Int ×ₗ Int ×ₗ Nat) :=
  @Prod.Lex.instLinearOrder Int (Int ×ₗ Int ×ₗ Nat) Int.instLinearOrder
    (@Prod.Lex.instLinearOrder Int (Int ×ₗ Nat) Int.instLinearOrder
      (@Prod.Lex.instLinearOrder Int Nat Int.instLinearOrder Nat.instLinearOrder))

namespace TimelineRow

/-- `CASE WHEN COALESCE(server_message_id, 0) <= 0 THEN 1 ELSE 0 END`. -/
def pendingRank (r : TimelineRow γ) : Int :=
  if r.serverMessageId.getD 0 ≤ 0 then 1 else 0

/-- The columns of `list_messages`; `NULL` sorts lowest. -/
def listingKey (r : TimelineRow γ) : Int ×ₗ WithBot Int ×ₗ WithBot Int ×ₗ Nat :=
  toLex (r.pendingRank, toLex (nullsLow r.pts, toLex (nullsLow r.serverMessageId, r.id)))

/-- The columns `k1` to `k4` of `list_messages_around`. -/
def aroundKey (r : TimelineRow γ) : Int ×ₗ Int ×ₗ Int ×ₗ Nat :=
  toLex (r.pendingRank, toLex (r.pts.getD 0, toLex (r.serverMessageId.getD 0, r.id)))

/-- `KEY_LT`: the row is below the anchor. -/
def keyLt (a r : TimelineRow γ) : Bool :=
  decide (r.pendingRank < a.pendingRank) ||
    (decide (r.pendingRank = a.pendingRank) &&
      (decide (r.pts.getD 0 < a.pts.getD 0) ||
        (decide (r.pts.getD 0 = a.pts.getD 0) &&
          (decide (r.serverMessageId.getD 0 < a.serverMessageId.getD 0) ||
            (decide (r.serverMessageId.getD 0 = a.serverMessageId.getD 0) &&
              decide (r.id < a.id))))))

/-- `KEY_GT`: the row is above the anchor. -/
def keyGt (a r : TimelineRow γ) : Bool :=
  decide (a.pendingRank < r.pendingRank) ||
    (decide (r.pendingRank = a.pendingRank) &&
      (decide (a.pts.getD 0 < r.pts.getD 0) ||
        (decide (r.pts.getD 0 = a.pts.getD 0) &&
          (decide (a.serverMessageId.getD 0 < r.serverMessageId.getD 0) ||
            (decide (r.serverMessageId.getD 0 = a.serverMessageId.getD 0) &&
              decide (a.id < r.id))))))

theorem keyLt_eq (a r : TimelineRow γ) : keyLt a r = decide (r.aroundKey < a.aroundKey) := by
  simp [keyLt, aroundKey, Prod.Lex.toLex_lt_toLex, Bool.decide_or, Bool.decide_and]

theorem keyGt_eq (a r : TimelineRow γ) : keyGt a r = decide (a.aroundKey < r.aroundKey) := by
  simp [keyGt, aroundKey, Prod.Lex.toLex_lt_toLex, Bool.decide_or, Bool.decide_and,
    eq_comm (a := r.pendingRank), eq_comm (a := r.pts.getD 0),
    eq_comm (a := r.serverMessageId.getD 0)]

theorem id_eq_of_listingKey_eq {a b : TimelineRow γ} (h : a.listingKey = b.listingKey) :
    a.id = b.id := by
  have hlast := congrArg (fun k => (ofLex (ofLex (ofLex k).2).2).2) h
  exact hlast

theorem id_eq_of_aroundKey_eq {a b : TimelineRow γ} (h : a.aroundKey = b.aroundKey) :
    a.id = b.id := by
  have hlast := congrArg (fun k => (ofLex (ofLex (ofLex k).2).2).2) h
  exact hlast

end TimelineRow

end Rows

section Queries

variable {γ : Type u}

/-- `LIMIT ?` of a count handed over as `i64`: from `2 ^ 63` on it is no limit. -/
def limited {α : Type u} (limit : Nat) (l : List α) : List α :=
  if limit < 2 ^ 63 then l.take limit else l

namespace Timeline

/-- The rows of a channel. -/
def channelRows (t : Timeline γ) (key : Session.ChannelCacheKey) : List (TimelineRow γ) :=
  t.rows.filter (fun r => r.channelId == key.channelId && r.channelType == key.channelType)

/-- `list_messages`. -/
def listMessages (t : Timeline γ) (key : Session.ChannelCacheKey) (limit offset : Nat) :
    List (TimelineRow γ) :=
  limited limit
    ((descending TimelineRow.listingKey (t.channelRows key)).drop
      (if offset < 2 ^ 63 then offset else 0))

/-- The row that the anchor's sort key is read from. -/
def anchorRow (t : Timeline γ) (key : Session.ChannelCacheKey) (anchor : Nat) :
    Option (TimelineRow γ) :=
  (t.channelRows key).find? (fun r => r.serverMessageId == some (wrapI64 anchor))

/-- `list_messages_around`. -/
def listMessagesAround (t : Timeline γ) (key : Session.ChannelCacheKey)
    (anchorServerMessageId beforeLimit afterLimit : Nat) : List (TimelineRow γ) :=
  match t.anchorRow key anchorServerMessageId with
  | none => []
  | some a =>
      ascending TimelineRow.aroundKey
          (limited beforeLimit
            (descending TimelineRow.aroundKey ((t.channelRows key).filter a.keyLt))) ++
        ((t.channelRows key).filter (fun r =>
          r.serverMessageId == some (a.serverMessageId.getD 0))).take 1 ++
        limited afterLimit
          (ascending TimelineRow.aroundKey ((t.channelRows key).filter a.keyGt))

/-- The subquery of `get_channel_by_id` and `list_channels`. -/
def previewId (t : Timeline γ) (key : Session.ChannelCacheKey) : Option Nat :=
  (newest TimelineRow.listingKey (t.channelRows key)).map TimelineRow.id

/-- The message that the row of the channel is joined with. -/
def previewMessage (t : Timeline γ) (key : Session.ChannelCacheKey) :
    Option (TimelineRow γ) :=
  (t.previewId key).bind (fun id => t.rows.find? (fun r => r.id == id))

/-- Missing values taken for zero sort the channel as missing values below all do. -/
def SortsAlike (t : Timeline γ) (key : Session.ChannelCacheKey) : Prop :=
  ∀ a ∈ t.channelRows key, ∀ b ∈ t.channelRows key,
    a.listingKey < b.listingKey ↔ a.aroundKey < b.aroundKey

/-- What is shown around an anchor is a slice of the whole listing, oldest first. -/
def ShowsWindow (t : Timeline γ) (key : Session.ChannelCacheKey) (anchor : Nat) : Prop :=
  ∀ before after,
    match t.anchorRow key anchor with
    | none => t.listMessagesAround key anchor before after = []
    | some a =>
        (t.listMessagesAround key anchor before after).Nodup ∧
          IsWindow (t.listMessages key (2 ^ 64 - 1) 0).reverse a before after
            (t.listMessagesAround key anchor before after)

/-- The preview is the head of every page that starts at the newest message. -/
def PreviewsHead (t : Timeline γ) (key : Session.ChannelCacheKey) : Prop :=
  ∀ limit, 0 < limit → t.previewMessage key = (t.listMessages key limit 0).head?

end Timeline

end Queries

section Windows

variable {γ : Type u} {t : Timeline γ} {key : Session.ChannelCacheKey} {anchor : Nat}
  {a : TimelineRow γ}

/-- Rising numbers below a bound are no more than the bound. -/
theorem length_le_of_rising {l : List Nat} {n : Nat} (h : l.Pairwise (· < ·))
    (hlt : ∀ i ∈ l, i < n) : l.length ≤ n := by
  have hnodup : l.Nodup := h.imp (fun hij => hij.ne)
  calc
    l.length = l.toFinset.card := (List.toFinset_card_of_nodup hnodup).symm
    _ ≤ (Finset.range n).card := by
        refine Finset.card_le_card (fun i hi => ?_)
        exact Finset.mem_range.mpr (hlt i (List.mem_toFinset.mp hi))
    _ = n := Finset.card_range n

theorem limited_eq_take {α : Type u} {limit : Nat} {l : List α} (h : l.length ≤ 2 ^ 63) :
    limited limit l = l.take limit := by
  unfold limited
  split
  · rfl
  · exact (List.take_of_length_le (by omega)).symm

namespace Timeline

theorem length_rows_le (t : Timeline γ) : t.rows.length ≤ 2 ^ 63 := by
  rw [← List.length_map TimelineRow.id]
  refine length_le_of_rising (List.pairwise_map.mpr t.sorted) (fun i hi => ?_)
  obtain ⟨r, hr, rfl⟩ := List.mem_map.mp hi
  exact t.id_lt r hr

theorem length_channelRows_le (t : Timeline γ) (key : Session.ChannelCacheKey) :
    (t.channelRows key).length ≤ 2 ^ 63 :=
  (List.length_filter_le _ _).trans t.length_rows_le

theorem channelRows_sorted (t : Timeline γ) (key : Session.ChannelCacheKey) :
    (t.channelRows key).Pairwise (fun a b => a.id < b.id) :=
  t.sorted.filter _

theorem distinct_listingKey (t : Timeline γ) (key : Session.ChannelCacheKey) :
    DistinctKeys TimelineRow.listingKey (t.channelRows key) :=
  (t.channelRows_sorted key).imp
    (fun hlt heq => hlt.ne (TimelineRow.id_eq_of_listingKey_eq heq))

theorem distinct_aroundKey (t : Timeline γ) (key : Session.ChannelCacheKey) :
    DistinctKeys TimelineRow.aroundKey (t.channelRows key) :=
  (t.channelRows_sorted key).imp
    (fun hlt heq => hlt.ne (TimelineRow.id_eq_of_aroundKey_eq heq))

theorem listMessages_eq (t : Timeline γ) (key : Session.ChannelCacheKey) (limit : Nat) :
    t.listMessages key limit 0 =
      (descending TimelineRow.listingKey (t.channelRows key)).take limit := by
  unfold listMessages
  rw [if_pos (by decide), List.drop_zero, limited_eq_take]
  rw [descending, List.length_insertionSort]
  exact t.length_channelRows_le key

/-- The whole listing, oldest message first. -/
theorem reverse_listMessages (t : Timeline γ) (key : Session.ChannelCacheKey) :
    (t.listMessages key (2 ^ 64 - 1) 0).reverse =
      ascending TimelineRow.listingKey (t.channelRows key) := by
  have hlength := t.length_channelRows_le key
  rw [listMessages_eq, List.take_of_length_le, (t.distinct_listingKey key).descending_eq,
    List.reverse_reverse]
  rw [descending, List.length_insertionSort]
  omega

theorem mem_of_anchorRow (h : t.anchorRow key anchor = some a) : a ∈ t.channelRows key :=
  List.mem_of_find?_eq_some h

theorem serverMessageId_of_anchorRow (h : t.anchorRow key anchor = some a) :
    a.serverMessageId = some (wrapI64 anchor) := by
  have hfound := List.find?_some h
  exact eq_of_beq hfound

/-- The three queries read the window around the anchor. -/
theorem listMessagesAround_eq (h : t.anchorRow key anchor = some a) (before after : Nat) :
    t.listMessagesAround key anchor before after =
      around TimelineRow.aroundKey (t.channelRows key) a before after := by
  have hanchor : ((t.channelRows key).filter (fun r =>
      r.serverMessageId == some (a.serverMessageId.getD 0))).take 1 = [a] := by
    rw [serverMessageId_of_anchorRow h, Option.getD_some, List.take_one, List.head?_filter]
    rw [anchorRow] at h
    rw [h, Option.toList_some]
  have hlength (p : TimelineRow γ → Bool) :
      ((t.channelRows key).filter p).length ≤ 2 ^ 63 :=
    (List.length_filter_le _ _).trans (t.length_channelRows_le key)
  have hbelow : (t.channelRows key).filter a.keyLt =
      (t.channelRows key).filter (fun r => r.aroundKey < a.aroundKey) :=
    List.filter_congr (fun r _ => a.keyLt_eq r)
  have habove : (t.channelRows key).filter a.keyGt =
      (t.channelRows key).filter (fun r => a.aroundKey < r.aroundKey) :=
    List.filter_congr (fun r _ => a.keyGt_eq r)
  unfold listMessagesAround
  rw [h]
  dsimp only
  rw [hanchor, limited_eq_take, limited_eq_take, hbelow, habove, around, List.append_assoc,
    List.singleton_append]
  · rw [ascending, List.length_insertionSort]
    exact hlength _
  · rw [descending, List.length_insertionSort]
    exact hlength _

theorem isWindow_listMessagesAround (h : t.anchorRow key anchor = some a)
    (before after : Nat) :
    IsWindow (ascending TimelineRow.aroundKey (t.channelRows key)) a before after
      (t.listMessagesAround key anchor before after) := by
  rw [listMessagesAround_eq h]
  exact isWindow_around (t.distinct_aroundKey key) (mem_of_anchorRow h) before after

/-- The channel row is joined with the message that sorts highest. -/
theorem previewMessage_eq (t : Timeline γ) (key : Session.ChannelCacheKey) :
    t.previewMessage key = newest TimelineRow.listingKey (t.channelRows key) := by
  unfold previewMessage previewId
  cases hmax : newest TimelineRow.listingKey (t.channelRows key) with
  | none =>
      rfl
  | some m =>
      have hm : m ∈ t.rows := List.mem_of_mem_filter (List.argmax_mem hmax)
      rw [Option.map_some, Option.bind_some]
      cases hfind : t.rows.find? (fun r => r.id == m.id) with
      | none =>
          exact absurd (beq_self_eq_true m.id) (List.find?_eq_none.mp hfind m hm)
      | some r =>
          have hfound := List.find?_some hfind
          have hid : r.id = m.id := eq_of_beq hfound
          have hdistinct : DistinctKeys TimelineRow.id t.rows := t.sorted.imp (fun hlt => hlt.ne)
          rw [hdistinct.eq_of_key (List.mem_of_find?_eq_some hfind) hm hid]

/-- The message beside the channel row is the one listed first. -/
theorem previewsHead (t : Timeline γ) (key : Session.ChannelCacheKey) :
    t.PreviewsHead key := by
  intro limit hlimit
  rw [previewMessage_eq, listMessages_eq, List.head?_take, if_neg (by omega),
    (t.distinct_listingKey key).newest_eq_head?]

/-- What the two keys agree on is what every window needs. -/
theorem showsWindow_iff (h : t.anchorRow key anchor = some a) :
    t.ShowsWindow key anchor ↔ t.SortsAlike key := by
  have hiff := ascending_eq_iff (t.distinct_listingKey key) (t.distinct_aroundKey key)
  unfold ShowsWindow
  rw [h, reverse_listMessages]
  constructor
  · intro hall
    have hlength (k : TimelineRow γ → Int ×ₗ Int ×ₗ Int ×ₗ Nat) :
        (ascending k (t.channelRows key)).length = (t.channelRows key).length :=
      List.length_insertionSort _ _
    have hlisted := (hall (t.channelRows key).length (t.channelRows key).length).2.eq_full
      (List.length_insertionSort _ _).le (List.length_insertionSort _ _).le
    have haround := (isWindow_listMessagesAround h (t.channelRows key).length
      (t.channelRows key).length).eq_full
      (List.length_insertionSort _ _).le (List.length_insertionSort _ _).le
    exact hiff.mp (hlisted.symm.trans haround)
  · intro halike before after
    have hwindow := isWindow_listMessagesAround h before after
    rw [← hiff.mpr halike] at hwindow
    refine ⟨hwindow.sublist.nodup ?_, hwindow⟩
    have hnodup : (t.channelRows key).Nodup :=
      (t.channelRows_sorted key).imp (fun hlt heq => hlt.ne (congrArg TimelineRow.id heq))
    exact (ascending_perm _ _).nodup_iff.mpr hnodup

/--
Where every message of a channel has a `pts`, and no server id is zero or negative,
the keys agree.
-/
theorem sortsAlike_of_complete
    (hpts : ∀ r ∈ t.channelRows key, r.pts ≠ none)
    (hserver : ∀ r ∈ t.channelRows key, ∀ sid, r.serverMessageId = some sid → 0 < sid) :
    t.SortsAlike key := by
  intro a ha b hb
  obtain ⟨p, hp⟩ := Option.ne_none_iff_exists'.mp (hpts a ha)
  obtain ⟨q, hq⟩ := Option.ne_none_iff_exists'.mp (hpts b hb)
  simp only [TimelineRow.listingKey, TimelineRow.aroundKey, TimelineRow.pendingRank,
    Prod.Lex.toLex_lt_toLex, hp, hq, nullsLow_some_lt, nullsLow_some_inj, Option.getD_some]
  cases hsa : a.serverMessageId with
  | none =>
      cases hsb : b.serverMessageId with
      | none =>
          simp
      | some sid =>
          have hpos := hserver b hb sid hsb
          simp [hpos.not_ge]
  | some sid =>
      have hpos := hserver a ha sid hsa
      cases hsb : b.serverMessageId with
      | none =>
          simp [hpos.not_ge]
      | some sid' =>
          simp

end Timeline

/--
Every window around an anchor is a slice of the listing of its channel, and the
preview is the head of the listing, exactly if no missing value sorts a message
elsewhere when it is taken for zero.
-/
theorem listMessagesAround_window_iff
    (t : Timeline γ) (key : Session.ChannelCacheKey) (anchor : Nat) :
    (t.ShowsWindow key anchor ∧ t.PreviewsHead key) ↔
      (t.anchorRow key anchor ≠ none → t.SortsAlike key) := by
  rw [and_iff_left (t.previewsHead key)]
  cases h : t.anchorRow key anchor with
  | none =>
      refine iff_of_true (fun before after => ?_) (fun hne => absurd rfl hne)
      rw [h]
      dsimp only
      rw [Timeline.listMessagesAround, h]
  | some a =>
      rw [Timeline.showsWindow_iff h]
      exact ⟨fun halike _ => halike, fun halike => halike (by simp)⟩

end Windows

/-- A message that was sent under server id zero, and one that is still to be sent. -/
def sentUnderZero : Timeline Unit where
  rows := [⟨1, some 0, some 0, 7, 1, ()⟩, ⟨2, none, some 0, 7, 1, ()⟩]
  sorted := by decide
  id_lt := by decide

/-- Two confirmed messages, the newer by server id without a `pts`. -/
def withoutPts : Timeline Unit where
  rows := [⟨1, some 5, none, 7, 1, ()⟩, ⟨2, some 3, some 0, 7, 1, ()⟩]
  sorted := by decide
  id_lt := by decide

/-- Around either anchor the messages come in an order that they are not listed in. -/
theorem listMessagesAround_not_window :
    ¬ sentUnderZero.ShowsWindow ⟨7, 1⟩ 0 ∧ ¬ withoutPts.ShowsWindow ⟨7, 1⟩ 3 := by
  constructor
  · intro hwindow
    have halike := (Timeline.showsWindow_iff (a := ⟨1, some 0, some 0, 7, 1, ()⟩)
      (by rfl)).mp hwindow
    have hlisted := (halike ⟨2, none, some 0, 7, 1, ()⟩ (by decide)
      ⟨1, some 0, some 0, 7, 1, ()⟩ (by decide)).mp (by decide)
    exact absurd hlisted (by decide)
  · intro hwindow
    have halike := (Timeline.showsWindow_iff (a := ⟨2, some 3, some 0, 7, 1, ()⟩)
      (by rfl)).mp hwindow
    have hlisted := (halike ⟨1, some 5, none, 7, 1, ()⟩ (by decide)
      ⟨2, some 3, some 0, 7, 1, ()⟩ (by decide)).mp (by decide)
    exact absurd hlisted (by decide)

section Stored

variable {s : Store} {key : Session.ChannelCacheKey}

/-- The sort columns of a stored row; the code never stores a message without `pts`. -/
def MessageRow.timelineRow (r : MessageRow) : TimelineRow MessageRow where
  id := r.id
  serverMessageId := r.serverMessageId.map Int.ofNat
  pts := some r.pts
  channelId := r.channelId
  channelType := r.channelType
  cells := r

/-- The message table of an account database. -/
def Store.messageTimeline (s : Store) (h : ∀ r ∈ s.message.rows, r.id < 2 ^ 63) :
    Timeline MessageRow where
  rows := s.message.rows.map MessageRow.timelineRow
  sorted := List.pairwise_map.mpr s.message.sorted
  id_lt := by
    intro r hr
    obtain ⟨row, hrow, rfl⟩ := List.mem_map.mp hr
    exact h row hrow

theorem MessageRow.nullsLow_lt (a b : MessageRow) :
    nullsLow a.timelineRow.serverMessageId < nullsLow b.timelineRow.serverMessageId ↔
      a.serverIdKey < b.serverIdKey := by
  unfold MessageRow.timelineRow MessageRow.serverIdKey
  cases a.serverMessageId <;> cases b.serverMessageId <;> simp [nullsLow]
  omega

theorem MessageRow.nullsLow_inj (a b : MessageRow) :
    nullsLow a.timelineRow.serverMessageId = nullsLow b.timelineRow.serverMessageId ↔
      a.serverIdKey = b.serverIdKey := by
  unfold MessageRow.timelineRow MessageRow.serverIdKey
  cases a.serverMessageId <;> cases b.serverMessageId <;> simp [nullsLow]

theorem MessageRow.pendingRank_eq (r : MessageRow) :
    r.timelineRow.pendingRank = if r.pending = true then 1 else 0 := by
  unfold MessageRow.timelineRow MessageRow.pending TimelineRow.pendingRank
  cases r.serverMessageId <;> simp

theorem MessageRow.listingKey_lt (a b : MessageRow) :
    a.timelineRow.listingKey < b.timelineRow.listingKey ↔
      (a.pending = false ∧ b.pending = true) ∨ (a.pending = b.pending ∧
        (a.pts < b.pts ∨ (a.pts = b.pts ∧
          (a.serverIdKey < b.serverIdKey ∨
            (a.serverIdKey = b.serverIdKey ∧ a.id < b.id))))) := by
  simp only [TimelineRow.listingKey, Prod.Lex.toLex_lt_toLex, MessageRow.nullsLow_lt,
    MessageRow.nullsLow_inj, MessageRow.pendingRank_eq]
  cases a.pending <;> cases b.pending <;> simp [MessageRow.timelineRow]

theorem MessageRow.listedBefore_iff (a b : MessageRow) :
    a.listedBefore b = true ↔ b.timelineRow.listingKey ≤ a.timelineRow.listingKey := by
  rw [← not_lt, MessageRow.listingKey_lt, MessageRow.listedBefore]
  by_cases hpending : a.pending = b.pending
  · by_cases hpts : a.pts = b.pts
    · by_cases hserver : a.serverIdKey = b.serverIdKey
      · simp [hpending, hpts, hserver]
      · simp [hpending, hpts, hserver]
        omega
    · simp [hpending, hpts]
      omega
  · cases ha : a.pending <;> cases hb : b.pending <;> simp_all

theorem MessageRow.serverIdKey_inj (a b : MessageRow) :
    a.serverMessageId = b.serverMessageId ↔ a.serverIdKey = b.serverIdKey := by
  unfold MessageRow.serverIdKey
  cases a.serverMessageId with
  | none =>
      cases b.serverMessageId with
      | none => simp only
      | some m =>
          simp only [Option.elim_none, Option.elim_some, reduceCtorEq]
  | some n =>
      cases b.serverMessageId with
      | none =>
          simp only [Option.elim_none, Option.elim_some, reduceCtorEq]
      | some m =>
          simp only [Option.elim_some, Option.some.injEq]
          omega

theorem previewBefore_iff (a b : MessageRow) :
    previewBefore a b = true ↔ b.timelineRow.listingKey < a.timelineRow.listingKey := by
  have hcolumns : previewBefore a b =
      if (a.pending != b.pending) = true then a.pending
      else if a.pts ≠ b.pts then decide (b.pts < a.pts)
      else if a.serverMessageId ≠ b.serverMessageId then
        decide (b.serverIdKey < a.serverIdKey)
      else decide (b.id < a.id) := rfl
  have hserver := a.serverIdKey_inj b
  rw [MessageRow.listingKey_lt, hcolumns]
  by_cases hpending : a.pending = b.pending
  · by_cases hpts : a.pts = b.pts
    · by_cases hkey : a.serverIdKey = b.serverIdKey
      · simp [hpending, hpts, hserver.mpr hkey, hkey]
      · simp [hpending, hpts, mt hserver.mp hkey, Ne.symm hkey]
    · simp [hpending, hpts, Ne.symm hpts]
  · cases ha : a.pending <;> cases hb : b.pending <;> simp_all

theorem Store.channelRows_messageTimeline (h : ∀ r ∈ s.message.rows, r.id < 2 ^ 63) :
    (s.messageTimeline h).channelRows key =
      (s.message.rows.filter (fun r =>
        r.channelId == key.channelId && r.channelType == key.channelType)).map
          MessageRow.timelineRow := by
  unfold Timeline.channelRows Store.messageTimeline
  rw [List.filter_map]
  rfl

/-- The rows of a channel, newest first, are what `list_messages` reads. -/
theorem Store.map_timelineRows (h : ∀ r ∈ s.message.rows, r.id < 2 ^ 63) :
    (s.timelineRows key).map MessageRow.timelineRow =
      descending TimelineRow.listingKey ((s.messageTimeline h).channelRows key) := by
  rw [Store.channelRows_messageTimeline, Store.timelineRows, descending]
  exact List.map_insertionSort _ _ _ _ (fun a _ b _ => a.listedBefore_iff b)

/-- The preferred row of a list is the one that sorts highest. -/
theorem map_foldl_previewBefore (rows : List MessageRow) (best : Option MessageRow) :
    (rows.foldl
      (fun best r =>
        match best with
        | none => some r
        | some b => if previewBefore r b then some r else some b)
      best).map MessageRow.timelineRow =
      (rows.map MessageRow.timelineRow).foldl
        (largerOf TimelineRow.listingKey)
        (best.map MessageRow.timelineRow) := by
  induction rows generalizing best with
  | nil =>
      rfl
  | cons r rows ih =>
      rw [List.foldl_cons, List.map_cons, List.foldl_cons, ih]
      congr 1
      cases best with
      | none =>
          rfl
      | some b =>
          rw [Option.map_some, largerOf, List.argAux]
          dsimp only
          by_cases hbefore : previewBefore r b = true
          · rw [if_pos hbefore, if_pos ((previewBefore_iff r b).mp hbefore), Option.map_some]
          · rw [if_neg hbefore, if_neg (mt (previewBefore_iff r b).mpr hbefore),
              Option.map_some]

theorem ReadState.map_previewRow (s : ReadState)
    (h : ∀ r ∈ s.base.message.rows, r.id < 2 ^ 63) :
    s.previewRow.map MessageRow.timelineRow =
      (s.base.messageTimeline h).previewMessage ⟨s.channelId, s.channelType⟩ := by
  rw [Timeline.previewMessage_eq, Store.channelRows_messageTimeline]
  exact map_foldl_previewBefore _ none

/-- Without a server id of zero, every window of an account's channel is a slice of it. -/
theorem Store.showsWindow (h : ∀ r ∈ s.message.rows, r.id < 2 ^ 63) (anchor : Nat)
    (hserver : ∀ r ∈ s.message.rows, r.serverMessageId ≠ some 0) :
    (s.messageTimeline h).ShowsWindow key anchor := by
  have halike : (s.messageTimeline h).SortsAlike key := by
    refine Timeline.sortsAlike_of_complete ?_ ?_
    · intro r hr
      rw [Store.channelRows_messageTimeline] at hr
      obtain ⟨row, -, rfl⟩ := List.mem_map.mp hr
      exact Option.some_ne_none _
    · intro r hr sid hsid
      rw [Store.channelRows_messageTimeline] at hr
      obtain ⟨row, hrow, rfl⟩ := List.mem_map.mp hr
      have hne := hserver row (List.mem_of_mem_filter hrow)
      obtain ⟨n, hn, rfl⟩ := Option.map_eq_some_iff.mp hsid
      have hpos : n ≠ 0 := fun hzero => hne (by rw [hn, hzero])
      exact Int.natCast_pos.mpr (Nat.pos_of_ne_zero hpos)
  cases hanchor : (s.messageTimeline h).anchorRow key anchor with
  | none =>
      intro before after
      rw [hanchor]
      dsimp only
      rw [Timeline.listMessagesAround, hanchor]
  | some a =>
      exact (Timeline.showsWindow_iff hanchor).mpr halike

end Stored

end PrivchatSdk
