import Mathlib.Data.List.Sort
import PrivchatSdk.SessionMemory

/-!
# The timeline of a channel and its cache

`list_messages` reads a page of a channel from the message table.  The session
keeps what it read: a page is filled into the cache of its channel message by
message, and leaves it when the channel or all channels are over their budget.

Here are the reading and what every operation on the cache does to the entry of
a channel (`channelMessageCache_evict`, `StoredEntry`, `snapshotFromCache_eq_some`).
-/

namespace PrivchatSdk

open RelTable

section Listing

/-- `COALESCE(server_message_id, 0) <= 0`. -/
def MessageRow.pending (r : MessageRow) : Bool :=
  r.serverMessageId.getD 0 == 0

/-- The server id as a sort key; a missing one sorts lowest. -/
def MessageRow.serverIdKey (r : MessageRow) : Int :=
  r.serverMessageId.elim (-1) (fun sid => (sid : Int))

/-- The `ORDER BY` of `list_messages`, every column falling. -/
def MessageRow.listedBefore (a b : MessageRow) : Bool :=
  if a.pending ≠ b.pending then a.pending
  else if a.pts ≠ b.pts then decide (b.pts < a.pts)
  else if a.serverIdKey ≠ b.serverIdKey then
    decide (b.serverIdKey < a.serverIdKey)
  else decide (b.id ≤ a.id)

/-- The rows of a channel in the order of its timeline. -/
def Store.timelineRows (s : Store) (key : Session.ChannelCacheKey) :
    List MessageRow :=
  (s.message.rows.filter (fun r =>
    r.channelId == key.channelId && r.channelType == key.channelType)).insertionSort
      (fun a b => a.listedBefore b = true)

/-- The messages of a channel, newest first. -/
def Store.timeline (s : Store) (key : Session.ChannelCacheKey) :
    List StoredMessage :=
  (s.timelineRows key).map (fun r => r.toStored (s.messageExtra.lookup r.id))

/--
`list_messages`.  Its numbers are handed over as signed: a limit from `2 ^ 63` on
is no limit, and an offset from there on is none.
-/
def Store.listMessages
    (s : Store) (key : Session.ChannelCacheKey) (limit offset : Nat) :
    List StoredMessage :=
  ((s.timeline key).drop (if offset < 2 ^ 63 then offset else 0)).take limit

theorem Store.mem_timelineRows
    {s : Store} {key : Session.ChannelCacheKey} {r : MessageRow} :
    r ∈ s.timelineRows key ↔
      r ∈ s.message.rows ∧ r.channelId = key.channelId ∧
        r.channelType = key.channelType := by
  simp [Store.timelineRows]

/-- A message that is listed is a row of the channel. -/
theorem Store.row_of_mem_listMessages
    {s : Store} {key : Session.ChannelCacheKey} {limit offset : Nat}
    {m : StoredMessage} (hm : m ∈ s.listMessages key limit offset) :
    ∃ r ∈ s.message.rows, r.channelId = key.channelId ∧
      r.channelType = key.channelType ∧
      m = r.toStored (s.messageExtra.lookup r.id) := by
  have htimeline : m ∈ s.timeline key :=
    List.mem_of_mem_drop (List.mem_of_mem_take hm)
  obtain ⟨r, hr, rfl⟩ := List.mem_map.mp htimeline
  obtain ⟨hmem, hid, htype⟩ := Store.mem_timelineRows.mp hr
  exact ⟨r, hmem, hid, htype, rfl⟩

end Listing

namespace Session

section Entries

variable {m : Memory} {key k : ChannelCacheKey}

@[simp] theorem channelMessageCache_touch (m : Memory) (key : ChannelCacheKey) :
    (m.touchCacheLru key).channelMessageCache = m.channelMessageCache := by
  rfl

theorem channelMessageCache_drop (m : Memory) (key k : ChannelCacheKey) :
    (m.dropCacheEntry key).channelMessageCache k =
      if k = key then none else m.channelMessageCache k := by
  unfold Memory.dropCacheEntry
  by_cases hk : k = key
  · subst hk
    cases hentry : m.channelMessageCache k with
    | none =>
        simp [hentry]
    | some removed =>
        simp
  · cases m.channelMessageCache key with
    | none =>
        simp [hk]
    | some removed =>
        simp [hk]

/-- An eviction empties the entry of its channel and no other. -/
@[simp] theorem channelMessageCache_evict (m : Memory) (key k : ChannelCacheKey) :
    (m.evictChannelCache key).channelMessageCache k =
      if k = key then none else m.channelMessageCache k := by
  exact channelMessageCache_drop m key k

/-- The global budget takes entries away and changes none. -/
theorem channelMessageCache_enforceFrom
    (budget : Nat) (m : Memory) (lru : List ChannelCacheKey)
    (k : ChannelCacheKey) :
    (m.enforceGlobalCacheBudgetFrom budget lru).channelMessageCache k = none ∨
      (m.enforceGlobalCacheBudgetFrom budget lru).channelMessageCache k =
        m.channelMessageCache k := by
  induction lru generalizing m with
  | nil =>
      exact Or.inr rfl
  | cons oldest lru ih =>
      unfold Memory.enforceGlobalCacheBudgetFrom
      split
      · rcases ih { m.dropCacheEntry oldest with channelCacheLru := lru } with
          hnone | heq
        · exact Or.inl hnone
        · have hdrop := channelMessageCache_drop m oldest k
          rw [heq, hdrop]
          split
          · exact Or.inl rfl
          · exact Or.inr rfl
      · exact Or.inr rfl

/-- The loop that shrinks a page gives back a beginning of it. -/
theorem shrink_sub_deque
    (minMessages maxMessages perBudget fuel : Nat) (deque : List StoredMessage)
    (bytes : Nat) :
    (fillChannelCache.shrink minMessages maxMessages perBudget fuel deque
      bytes).1 <+: deque := by
  induction fuel generalizing deque bytes with
  | zero =>
      exact List.prefix_rfl
  | succ fuel ih =>
      unfold fillChannelCache.shrink
      split
      · split
        · exact List.prefix_rfl
        · exact (ih _ _).trans (List.dropLast_prefix deque)
      · exact List.prefix_rfl

/-- What is filled in are messages of the page, in their order. -/
theorem fillChannelCache_sublist
    (minMessages maxMessages perBudget : Nat) (deque : List StoredMessage)
    (bytes : Nat) (page : List StoredMessage) :
    (fillChannelCache minMessages maxMessages perBudget deque bytes page).1.Sublist
      (deque ++ page) := by
  induction page generalizing deque bytes with
  | nil =>
      simp [fillChannelCache]
  | cons message page ih =>
      unfold fillChannelCache
      dsimp only
      refine (ih _ _).trans ?_
      have hshrunk := (shrink_sub_deque minMessages maxMessages perBudget
        (deque.length + 1) (deque ++ [message])
        (bytes + estimateMessageBytes message)).sublist
      have happend := hshrunk.append (List.Sublist.refl page)
      rwa [List.append_assoc, List.singleton_append] at happend

/-- What a page leaves in the entry of its channel. -/
def MessageCachePolicyConfig.filled
    (config : MessageCachePolicyConfig) (page : List StoredMessage) :
    List StoredMessage :=
  (fillChannelCache (max (min config.minMessages config.maxMessages) 1)
    (max config.maxMessages 1) config.perChannelBudgetBytes [] 0
    (page.take (max config.maxMessages 1))).1

theorem MessageCachePolicyConfig.filled_sublist
    (config : MessageCachePolicyConfig) (page : List StoredMessage) :
    (config.filled page).Sublist page :=
  (fillChannelCache_sublist _ _ _ [] 0 _).trans (List.take_sublist _ page)

/-- An entry behind a stored page: an earlier one, or the page filled in. -/
theorem entry_storeChannelCache
    {cacheConfig : Option MessageCachePolicyConfig} {page : List StoredMessage}
    {hasMoreBefore : Bool} {entry : ChannelMessageCache}
    (h : (m.storeChannelCache cacheConfig key page
      hasMoreBefore).channelMessageCache k = some entry) :
    m.channelMessageCache k = some entry ∨
      (k = key ∧ ∃ config, cacheConfig = some config ∧
        entry.messages = config.filled page ∧
        entry.hasMoreBefore = hasMoreBefore) := by
  unfold Memory.storeChannelCache at h
  cases cacheConfig with
  | none =>
      exact Or.inl h
  | some config =>
      dsimp only at h
      split at h
      · rw [channelMessageCache_evict] at h
        split at h
        · cases h
        · exact Or.inl h
      · unfold Memory.enforceGlobalCacheBudget at h
        rcases channelMessageCache_enforceFrom config.globalBudgetBytes _ _ k with
          hnone | heq
        · rw [hnone] at h
          cases h
        · rw [heq, channelMessageCache_touch] at h
          dsimp only at h
          by_cases hk : k = key
          · subst hk
            rw [Function.update_self] at h
            cases h
            exact Or.inr ⟨rfl, config, rfl, rfl, rfl⟩
          · rw [Function.update_of_ne hk, channelMessageCache_evict, if_neg hk] at h
            exact Or.inl h

/-- What the cache says of a channel after a page of `key` was stored. -/
inductive StoredEntry
    (m : Memory) (key : ChannelCacheKey) (page : List StoredMessage)
    (hasMoreBefore : Bool) (k : ChannelCacheKey) :
    Option ChannelMessageCache → Prop
  | dropped : StoredEntry m key page hasMoreBefore k none
  | kept : StoredEntry m key page hasMoreBefore k (m.channelMessageCache k)
  | filled (entry : ChannelMessageCache) (hkey : k = key)
      (hmessages : entry.messages.Sublist page)
      (hmore : entry.hasMoreBefore = hasMoreBefore) :
      StoredEntry m key page hasMoreBefore k (some entry)

theorem storedEntry_storeChannelCache
    (cacheConfig : Option MessageCachePolicyConfig) (m : Memory)
    (key : ChannelCacheKey) (page : List StoredMessage) (hasMoreBefore : Bool)
    (k : ChannelCacheKey) :
    StoredEntry m key page hasMoreBefore k
      ((m.storeChannelCache cacheConfig key page hasMoreBefore).channelMessageCache
        k) := by
  cases hentry : (m.storeChannelCache cacheConfig key page
      hasMoreBefore).channelMessageCache k with
  | none =>
      exact .dropped
  | some entry =>
      rcases entry_storeChannelCache hentry with
        hbefore | ⟨hkey, config, -, hmessages, hmore⟩
      · rw [← hbefore]
        exact .kept
      · exact .filled entry hkey (hmessages ▸ config.filled_sublist page) hmore

/-- The page that an entry answers with. -/
def ChannelMessageCache.snapshot
    (entry : ChannelMessageCache) (limit : Nat) : TimelineSnapshot where
  messages := entry.messages.take (max limit 1)
  newestMessageId := (entry.messages.take (max limit 1)).head?.map
    (fun r => r.messageId)
  oldestMessageId := (entry.messages.take (max limit 1)).getLast?.map
    (fun r => r.messageId)
  hasMoreBefore := entry.hasMoreBefore ||
    decide ((entry.messages.take (max limit 1)).length < entry.messages.length)
  fromCache := true

/-- The cache answers from offset zero, where it has an entry that is not empty. -/
theorem snapshotFromCache_eq_some
    {cacheConfig : Option MessageCachePolicyConfig} {limit offset : Nat}
    {snapshot : TimelineSnapshot} {m' : Memory}
    (h : m.snapshotFromCache cacheConfig key limit offset = some (snapshot, m')) :
    offset = 0 ∧ cacheConfig.isSome = true ∧
      m' = m.touchCacheLru key ∧
      ∃ entry, m.channelMessageCache key = some entry ∧ entry.messages ≠ [] ∧
        snapshot = entry.snapshot limit := by
  unfold Memory.snapshotFromCache at h
  split at h
  · cases h
  · rename_i hask
    split at h
    · cases h
    · rename_i entry hentry
      dsimp only at h
      split at h
      · cases h
      · rename_i hne
        cases h
        refine ⟨by simpa using fun h => hask (Or.inl h), ?_, rfl, entry, hentry,
          ?_, rfl⟩
        · cases cacheConfig with
          | none =>
              simp at hask
          | some config =>
              rfl
        · intro hempty
          simp [hempty] at hne

/-- A query leaves the entries as they are or fills that of its channel. -/
theorem storedEntry_queryTimelineSnapshot
    (cacheConfig : Option MessageCachePolicyConfig)
    (listMessages : ChannelCacheKey → Nat → Nat → List StoredMessage)
    (m : Memory) (key : ChannelCacheKey) (limit offset : Nat)
    (k : ChannelCacheKey) :
    StoredEntry m key ((listMessages key (max limit 1 + 1) offset).take
        (max limit 1))
      (decide (max limit 1 <
        (listMessages key (max limit 1 + 1) offset).length)) k
      ((m.queryTimelineSnapshot cacheConfig listMessages key limit
        offset).2.channelMessageCache k) := by
  unfold Memory.queryTimelineSnapshot
  cases hcached : m.snapshotFromCache cacheConfig key limit offset with
  | none =>
      dsimp only
      split
      · exact storedEntry_storeChannelCache ..
      · exact .kept
  | some found =>
      obtain ⟨snapshot, m'⟩ := found
      obtain ⟨-, -, rfl, -⟩ := snapshotFromCache_eq_some hcached
      exact .kept

end Entries

section Repairs

/-- What the memory knows about repairs. -/
def Memory.repairs (m : Memory) :
    List RepairKey × Finset RepairKey × (RepairKey → Option (Nat × Nat)) :=
  (m.repairQueue, m.repairSeen, m.repairBackoff)

theorem repairs_drop (m : Memory) (key : ChannelCacheKey) :
    (m.dropCacheEntry key).repairs = m.repairs := by
  unfold Memory.dropCacheEntry
  split
  · rfl
  · rfl

@[simp] theorem repairs_evict (m : Memory) (key : ChannelCacheKey) :
    (m.evictChannelCache key).repairs = m.repairs := by
  exact repairs_drop m key

theorem repairs_enforceFrom
    (budget : Nat) (m : Memory) (lru : List ChannelCacheKey) :
    (m.enforceGlobalCacheBudgetFrom budget lru).repairs = m.repairs := by
  induction lru generalizing m with
  | nil =>
      rfl
  | cons oldest lru ih =>
      unfold Memory.enforceGlobalCacheBudgetFrom
      split
      · exact (ih _).trans (repairs_drop m oldest)
      · rfl

theorem repairs_storeChannelCache
    (cacheConfig : Option MessageCachePolicyConfig) (m : Memory)
    (key : ChannelCacheKey) (page : List StoredMessage) (hasMoreBefore : Bool) :
    (m.storeChannelCache cacheConfig key page hasMoreBefore).repairs =
      m.repairs := by
  unfold Memory.storeChannelCache
  cases cacheConfig with
  | none =>
      rfl
  | some config =>
      dsimp only
      split
      · exact repairs_evict m key
      · exact (repairs_enforceFrom _ _ _).trans (repairs_evict m key)

/-- A query concerns no repair. -/
theorem repairs_queryTimelineSnapshot
    (cacheConfig : Option MessageCachePolicyConfig)
    (listMessages : ChannelCacheKey → Nat → Nat → List StoredMessage)
    (m : Memory) (key : ChannelCacheKey) (limit offset : Nat) :
    (m.queryTimelineSnapshot cacheConfig listMessages key limit
      offset).2.repairs = m.repairs := by
  unfold Memory.queryTimelineSnapshot
  cases hcached : m.snapshotFromCache cacheConfig key limit offset with
  | none =>
      dsimp only
      split
      · exact repairs_storeChannelCache ..
      · rfl
  | some found =>
      obtain ⟨snapshot, m'⟩ := found
      obtain ⟨-, -, rfl, -⟩ := snapshotFromCache_eq_some hcached
      rfl

end Repairs

end Session
end PrivchatSdk
