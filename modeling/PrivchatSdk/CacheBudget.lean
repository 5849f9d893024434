import Mathlib.Algebra.BigOperators.Group.Finset.Basic
import PrivchatSdk.Lib.Run
import PrivchatSdk.Lib.RecentlyUsed
import PrivchatSdk.TimelineCache

/-!
# The accounts of the timeline cache

A session keeps the first pages of its channels in a map, the channels in the order of
their last use in a list, and the bytes of all pages in a counter.  Pages are stored and
answered, invalidated one by one or by the events of a batch, cleared with the session or
with the policy, and dropped when the counter is over the global budget.

The three agree after every run of these operations: the operations are those of
`RecentlyUsed.Cache`, with the estimate of an entry as its weight.  The counter is a
`usize` whose additions saturate; they never do while a page fits into memory.
-/

namespace PrivchatSdk
namespace Session

open EventRun
open RecentlyUsed (Cache Trimmed)
open ChannelMessageCache (estimatedBytes)

section Timelines

/-- The timeline cache of a session. -/
def Memory.timelines (m : Memory) : Cache ChannelCacheKey ChannelMessageCache where
  entries := m.channelMessageCache
  order := m.channelCacheLru
  total := m.channelCacheTotalBytes

@[simp] theorem timelines_touch (m : Memory) (key : ChannelCacheKey) :
    (m.touchCacheLru key).timelines = m.timelines.touch key := by
  rfl

theorem timelines_drop (m : Memory) (key : ChannelCacheKey) :
    (m.dropCacheEntry key).timelines = m.timelines.drop estimatedBytes key := by
  unfold Memory.dropCacheEntry
  split
  · rename_i hnone
    have hentries : Function.update m.channelMessageCache key none =
        m.channelMessageCache :=
      Function.update_eq_self_iff.mpr hnone.symm
    simp [Memory.timelines, Cache.drop, Cache.weightAt, hnone, hentries]
  · rename_i removed hsome
    simp [Memory.timelines, Cache.drop, Cache.weightAt, hsome]

@[simp] theorem timelines_evict (m : Memory) (key : ChannelCacheKey) :
    (m.evictChannelCache key).timelines = m.timelines.evict estimatedBytes key := by
  have hlru : (m.dropCacheEntry key).channelCacheLru = m.channelCacheLru :=
    congrArg Cache.order (timelines_drop m key)
  have hdrop := timelines_drop m key
  unfold Memory.evictChannelCache Cache.evict
  rw [← hdrop]
  simp only [Memory.timelines, hlru]

theorem timelines_enforceFrom (budget : Nat) (lru : List ChannelCacheKey) (m : Memory) :
    (m.enforceGlobalCacheBudgetFrom budget lru).timelines =
      m.timelines.trimFrom estimatedBytes budget lru := by
  induction lru generalizing m with
  | nil =>
      rfl
  | cons oldest lru ih =>
      unfold Memory.enforceGlobalCacheBudgetFrom Cache.trimFrom
      have hdropped :
          ({ m.dropCacheEntry oldest with channelCacheLru := lru } : Memory).timelines =
            { m.timelines.drop estimatedBytes oldest with order := lru } := by
        rw [← timelines_drop]
        rfl
      by_cases hover : budget < m.channelCacheTotalBytes
      · have hover' : budget < m.timelines.total := hover
        rw [if_pos hover, if_pos hover', ih, hdropped]
      · have hover' : ¬ budget < m.timelines.total := hover
        rw [if_neg hover, if_neg hover']

/-- What the fill loop makes of a page under a policy. -/
def MessageCachePolicyConfig.fill
    (config : MessageCachePolicyConfig) (page : List StoredMessage) :
    List StoredMessage × Nat :=
  fillChannelCache (max (min config.minMessages config.maxMessages) 1)
    (max config.maxMessages 1) config.perChannelBudgetBytes [] 0
    (page.take (max config.maxMessages 1))

/-- The entry that a page is stored as. -/
def MessageCachePolicyConfig.entry
    (config : MessageCachePolicyConfig) (page : List StoredMessage)
    (hasMoreBefore : Bool) : ChannelMessageCache where
  messages := (config.fill page).1
  estimatedBytes := (config.fill page).2
  hasMoreBefore := hasMoreBefore

theorem timelines_store
    (config : MessageCachePolicyConfig) (m : Memory) (key : ChannelCacheKey)
    {page : List StoredMessage} (hpage : page ≠ []) (hasMoreBefore : Bool) :
    (m.storeChannelCache (some config) key page hasMoreBefore).timelines =
      (m.timelines.insert estimatedBytes key (config.entry page hasMoreBefore)).trim
        estimatedBytes config.globalBudgetBytes := by
  have hempty : page.isEmpty = false := by
    simpa using hpage
  unfold Memory.storeChannelCache
  simp only [hempty, Bool.false_eq_true, if_false, Memory.enforceGlobalCacheBudget]
  rw [timelines_enforceFrom, timelines_touch]
  have hevict := timelines_evict m key
  unfold Cache.trim Cache.insert
  rw [← hevict]
  rfl

end Timelines

section Fill

/-- What messages take by the estimate. -/
def estimateBytes (messages : List StoredMessage) : Nat :=
  (messages.map estimateMessageBytes).sum

@[simp] theorem estimateBytes_append (a b : List StoredMessage) :
    estimateBytes (a ++ b) = estimateBytes a + estimateBytes b := by
  simp [estimateBytes]

theorem estimateBytes_cons (message : StoredMessage) (messages : List StoredMessage) :
    estimateBytes (message :: messages) =
      estimateMessageBytes message + estimateBytes messages := by
  simp [estimateBytes]

theorem estimateBytes_le_of_sublist {a b : List StoredMessage} (h : a.Sublist b) :
    estimateBytes a ≤ estimateBytes b :=
  (h.map estimateMessageBytes).sum_le_sum (fun _ _ => Nat.zero_le _)

/-- The bytes that the shrink loop counts are those of the messages it keeps. -/
theorem shrink_bytes
    (minMessages maxMessages perBudget fuel : Nat) (deque : List StoredMessage) :
    (fillChannelCache.shrink minMessages maxMessages perBudget fuel deque
        (estimateBytes deque)).2 =
      estimateBytes (fillChannelCache.shrink minMessages maxMessages perBudget fuel deque
        (estimateBytes deque)).1 := by
  induction fuel generalizing deque with
  | zero =>
      rfl
  | succ fuel ih =>
      unfold fillChannelCache.shrink
      split
      · cases hlast : deque.getLast? with
        | none =>
            rfl
        | some old =>
            have hsplit : deque.dropLast ++ [old] = deque :=
              List.dropLast_append_getLast? old hlast
            have hbytes : estimateBytes deque - estimateMessageBytes old =
                estimateBytes deque.dropLast := by
              have hsum := estimateBytes_append deque.dropLast [old]
              rw [hsplit, estimateBytes_cons] at hsum
              simp only [estimateBytes, List.map_nil, List.sum_nil] at hsum ⊢
              omega
            dsimp only
            rw [hbytes]
            exact ih deque.dropLast
      · rfl

theorem fillChannelCache_bytes
    (minMessages maxMessages perBudget : Nat) (deque page : List StoredMessage) :
    (fillChannelCache minMessages maxMessages perBudget deque
        (estimateBytes deque) page).2 =
      estimateBytes (fillChannelCache minMessages maxMessages perBudget deque
        (estimateBytes deque) page).1 := by
  induction page generalizing deque with
  | nil =>
      rfl
  | cons message page ih =>
      unfold fillChannelCache
      have hbytes : estimateBytes deque + estimateMessageBytes message =
          estimateBytes (deque ++ [message]) := by
        simp [estimateBytes]
      rw [hbytes]
      dsimp only
      rw [shrink_bytes]
      exact ih _

/-- The estimate of an entry is the sum over its messages. -/
theorem entry_estimatedBytes
    (config : MessageCachePolicyConfig) (page : List StoredMessage)
    (hasMoreBefore : Bool) :
    (config.entry page hasMoreBefore).estimatedBytes =
      estimateBytes (config.entry page hasMoreBefore).messages :=
  fillChannelCache_bytes _ _ _ [] _

end Fill

section Runs

/-- `set_message_cache_policy` on the memory: the timelines are cleared. -/
def Memory.setMessageCachePolicy (m : Memory) : Memory :=
  { m with
    channelMessageCache := fun _ => none
    channelCacheLru := []
    channelCacheTotalBytes := 0 }

/-- A session with its cache policy, and the channels in the order they were used. -/
structure TimelineSession where
  policy : Option MessageCachePolicyConfig
  memory : Memory
  /-- A record of the run; the program keeps none. -/
  used : List ChannelCacheKey

def TimelineSession.start (policy : Option MessageCachePolicyConfig) :
    TimelineSession where
  policy := policy
  memory := Memory.fresh
  used := []

/-- What the session does with its timeline cache. -/
inductive CacheAction where
  /-- `store_channel_cache`. -/
  | store (key : ChannelCacheKey) (page : List StoredMessage) (hasMoreBefore : Bool)
  /-- `snapshot_from_cache`, a hit where the cache can answer. -/
  | hit (key : ChannelCacheKey) (limit offset : Nat)
  /-- `query_timeline_snapshot` over a database that lists `rows`. -/
  | query (key : ChannelCacheKey) (limit offset : Nat) (rows : List StoredMessage)
  /-- `invalidate_channel_cache_with_reason`. -/
  | invalidate (key : ChannelCacheKey)
  /-- `invalidate_cache_for_events`. -/
  | applied (events : List SdkEvent)
  /-- `reset_session_scoped_state`. -/
  | reset
  /-- `set_message_cache_policy`. -/
  | setPolicy (policy : Option MessageCachePolicyConfig)

def TimelineSession.store (s : TimelineSession) (key : ChannelCacheKey)
    (page : List StoredMessage) (hasMoreBefore : Bool) : TimelineSession :=
  { s with
    memory := s.memory.storeChannelCache s.policy key page hasMoreBefore
    used := if s.policy.isSome ∧ page ≠ [] then s.used ++ [key] else s.used }

def TimelineSession.hit (s : TimelineSession) (key : ChannelCacheKey)
    (limit offset : Nat) : TimelineSession :=
  match s.memory.snapshotFromCache s.policy key limit offset with
  | none => s
  | some (_, m') => { s with memory := m', used := s.used ++ [key] }

def TimelineSession.step (s : TimelineSession) : CacheAction → TimelineSession
  | .store key page hasMoreBefore => s.store key page hasMoreBefore
  | .hit key limit offset => s.hit key limit offset
  | .query key limit offset rows =>
      { s with
        memory := (s.memory.queryTimelineSnapshot s.policy (fun _ _ _ => rows) key limit
          offset).2
        used :=
          if (s.memory.snapshotFromCache s.policy key limit offset).isSome ∨
              (offset = 0 ∧ s.policy.isSome ∧ rows ≠ []) then
            s.used ++ [key]
          else
            s.used }
  | .invalidate key => { s with memory := s.memory.evictChannelCache key }
  | .applied events => { s with memory := s.memory.invalidateCacheForEvents events }
  | .reset => { s with memory := s.memory.resetSessionScopedState }
  | .setPolicy policy =>
      { s with policy := policy, memory := s.memory.setMessageCachePolicy }

/-- A query is a hit, or the page it read stored, or nothing. -/
theorem step_query (s : TimelineSession) (key : ChannelCacheKey) (limit offset : Nat)
    (rows : List StoredMessage) :
    s.step (.query key limit offset rows) = s.hit key limit offset ∨
      s.step (.query key limit offset rows) =
        s.store key (rows.take (max limit 1)) (decide (max limit 1 < rows.length)) ∨
      s.step (.query key limit offset rows) = s := by
  cases hcached : s.memory.snapshotFromCache s.policy key limit offset with
  | some found =>
      left
      simp [TimelineSession.step, TimelineSession.hit, Memory.queryTimelineSnapshot,
        hcached]
  | none =>
      right
      by_cases hoffset : offset = 0
      · subst hoffset
        left
        have hempty : rows.take (max limit 1) ≠ [] ↔ rows ≠ [] := by
          rw [Ne, List.take_eq_nil_iff]
          have hpos : max limit 1 ≠ 0 := by omega
          simp [hpos]
        simp [TimelineSession.step, TimelineSession.store,
          Memory.queryTimelineSnapshot, hcached, hempty]
      · right
        simp [TimelineSession.step, Memory.queryTimelineSnapshot, hcached, hoffset]

/-- The cache keeps its accounts, and the budget of its policy. -/
structure TimelineSession.Sound (s : TimelineSession) : Prop where
  accounted : s.memory.timelines.Accounted estimatedBytes
  ordered : s.memory.timelines.OrderedBy s.used
  sized : ∀ key entry, s.memory.channelMessageCache key = some entry →
    entry.estimatedBytes = estimateBytes entry.messages
  within : ∀ config, s.policy = some config →
    s.memory.channelCacheTotalBytes ≤ config.globalBudgetBytes
  disabled : s.policy = none → s.memory.timelines = Cache.empty

variable {s : TimelineSession}

/-- A session whose timelines are empty is sound. -/
theorem sound_of_empty (h : s.memory.timelines = Cache.empty) : s.Sound where
  accounted := h ▸ Cache.accounted_empty
  ordered := by
    rw [h]
    exact Cache.orderedBy_of_none rfl (fun k => by simp [Cache.empty, Cache.live])
  sized := fun key entry hentry => by
    have hnone : s.memory.channelMessageCache key = none :=
      congrFun (congrArg Cache.entries h) key
    rw [hnone] at hentry
    cases hentry
  within := fun config _ => by
    have hzero : s.memory.channelCacheTotalBytes = 0 := congrArg Cache.total h
    rw [hzero]
    exact Nat.zero_le _
  disabled := fun _ => h

theorem evict_empty (key : ChannelCacheKey) :
    (Cache.empty : Cache ChannelCacheKey ChannelMessageCache).evict estimatedBytes key =
      Cache.empty := by
  have hentries : Function.update (fun _ : ChannelCacheKey =>
      (none : Option ChannelMessageCache)) key none = fun _ => none :=
    Function.update_eq_self_iff.mpr rfl
  simp only [Cache.empty, Cache.evict, Cache.drop, hentries]
  rfl

theorem TimelineSession.Sound.evict (h : s.Sound) (key : ChannelCacheKey) :
    ({ s with memory := s.memory.evictChannelCache key } : TimelineSession).Sound where
  accounted := by
    simpa using h.accounted.evict key
  ordered := by
    simpa using h.ordered.evict h.accounted key
  sized := fun k entry hentry => by
    simp only [channelMessageCache_evict] at hentry
    split at hentry
    · cases hentry
    · exact h.sized k entry hentry
  within := fun config hpolicy => by
    have htotal := h.accounted.evict_exact key
    rw [← timelines_evict] at htotal
    exact (Nat.le.intro htotal).trans (h.within config hpolicy)
  disabled := fun hpolicy => by
    simp only [timelines_evict]
    rw [h.disabled hpolicy, evict_empty]

theorem TimelineSession.Sound.applied (events : List SdkEvent) (h : s.Sound) :
    ({ s with memory := s.memory.invalidateCacheForEvents events } :
      TimelineSession).Sound := by
  induction events generalizing s with
  | nil =>
      exact h
  | cons event events ih =>
      cases event with
      | timelineUpdated channelId channelType messageId reason =>
          exact ih (h.evict { channelId := channelId, channelType := channelType })
      | _ =>
          exact ih h

theorem TimelineSession.Sound.hit (h : s.Sound) (key : ChannelCacheKey)
    (limit offset : Nat) : (s.hit key limit offset).Sound := by
  unfold TimelineSession.hit
  cases hcached : s.memory.snapshotFromCache s.policy key limit offset with
  | none =>
      exact h
  | some found =>
      obtain ⟨snapshot, m'⟩ := found
      obtain ⟨-, -, rfl, entry, hentry, -⟩ := snapshotFromCache_eq_some hcached
      have hlive : s.memory.timelines.live key := by
        simp [Cache.live, Memory.timelines, hentry]
      exact
        { accounted := h.accounted.touch hlive
          ordered := h.ordered.touch h.accounted hlive
          sized := h.sized
          within := h.within
          disabled := fun hpolicy => by
            have hnone : s.memory.channelMessageCache key = none :=
              congrFun (congrArg Cache.entries (h.disabled hpolicy)) key
            rw [hnone] at hentry
            cases hentry }

/-- A stored page takes the place of the old one, and the budget is met again. -/
theorem TimelineSession.Sound.trimmed (h : s.Sound) {config : MessageCachePolicyConfig}
    (hpolicy : s.policy = some config) (key : ChannelCacheKey)
    {page : List StoredMessage} (hpage : page ≠ []) (hasMoreBefore : Bool) :
    (s.store key page hasMoreBefore).memory.timelines.Accounted estimatedBytes ∧
      ∃ gone, Trimmed estimatedBytes config.globalBudgetBytes
        (s.memory.timelines.insert estimatedBytes key (config.entry page hasMoreBefore))
        (s.store key page hasMoreBefore).memory.timelines gone := by
  have hstored := timelines_store config s.memory key hpage hasMoreBefore
  rw [TimelineSession.store, hpolicy, hstored]
  exact (h.accounted.insert key _).trim config.globalBudgetBytes

theorem TimelineSession.Sound.store (h : s.Sound) (key : ChannelCacheKey)
    (page : List StoredMessage) (hasMoreBefore : Bool) :
    (s.store key page hasMoreBefore).Sound := by
  cases hpolicy : s.policy with
  | none =>
      have hsame : s.store key page hasMoreBefore = s := by
        obtain ⟨policy, memory, used⟩ := s
        cases hpolicy
        rfl
      exact hsame.symm ▸ h
  | some config =>
      by_cases hpage : page = []
      · subst hpage
        have hevict : s.store key [] hasMoreBefore =
            { s with memory := s.memory.evictChannelCache key } := by
          simp [TimelineSession.store, hpolicy, Memory.storeChannelCache]
        exact hevict.symm ▸ h.evict key
      · obtain ⟨haccounted, gone, hgone⟩ := h.trimmed hpolicy key hpage hasMoreBefore
        have hused : (s.store key page hasMoreBefore).used = s.used ++ [key] := by
          simp [TimelineSession.store, hpolicy, hpage]
        refine ⟨haccounted, ?_, fun k entry hentry => ?_, fun config' hconfig => ?_,
          fun hnone => ?_⟩
        · rw [hused]
          exact (h.ordered.insert h.accounted key _).trimmed
            (h.accounted.insert key _) hgone
        · rcases entry_storeChannelCache hentry with hbefore | ⟨rfl, _⟩
          · exact h.sized k entry hbefore
          · have hentries := hgone.entries k
            split at hentries
            · exact absurd (hentries.symm.trans hentry) (by simp)
            · have hinserted := hentries.symm.trans hentry
              have hself : entry = config.entry page hasMoreBefore := by
                simpa [Cache.insert, Cache.touch] using hinserted.symm
              rw [hself]
              exact entry_estimatedBytes config page hasMoreBefore
        · have hsame : s.policy = some config' := hconfig
          rw [hpolicy] at hsame
          cases hsame
          exact hgone.within
        · have hsome : s.policy = none := hnone
          rw [hpolicy] at hsome
          cases hsome

theorem TimelineSession.Sound.step (h : s.Sound) (action : CacheAction) :
    (s.step action).Sound := by
  cases action with
  | store key page hasMoreBefore => exact h.store key page hasMoreBefore
  | hit key limit offset => exact h.hit key limit offset
  | query key limit offset rows =>
      rcases step_query s key limit offset rows with hhit | hstored | hsame
      · exact hhit ▸ h.hit key limit offset
      · exact hstored ▸ h.store key _ _
      · exact hsame.symm ▸ h
  | invalidate key => exact h.evict key
  | applied events => exact h.applied events
  | reset => exact sound_of_empty rfl
  | setPolicy policy => exact sound_of_empty rfl

theorem TimelineSession.sound_run (policy : Option MessageCachePolicyConfig)
    (actions : List CacheAction) :
    (run TimelineSession.step (TimelineSession.start policy) actions).Sound :=
  run_invariant TimelineSession.Sound (fun _ action h => h.step action)
    (sound_of_empty rfl) actions

end Runs

section Saturation

def usizeMax : Nat := 2 ^ 64 - 1

/-- `usize::saturating_add`. -/
def saturatingAdd (a b : Nat) : Nat :=
  min (a + b) usizeMax

theorem saturatingAdd_eq {a b : Nat} (h : a + b ≤ usizeMax) : saturatingAdd a b = a + b :=
  Nat.min_eq_left h

/-- The fill loop of `store_channel_cache` with the additions of the machine. -/
def fillChannelCacheUsize
    (minMessages maxMessages perBudget : Nat) :
    List StoredMessage → Nat → List StoredMessage → List StoredMessage × Nat
  | deque, bytes, [] => (deque, bytes)
  | deque, bytes, message :: messages =>
      let (deque', bytes') := fillChannelCache.shrink minMessages maxMessages perBudget
        (deque.length + 1) (deque ++ [message])
        (saturatingAdd bytes (estimateMessageBytes message))
      fillChannelCacheUsize minMessages maxMessages perBudget deque' bytes' messages

/-- `store_channel_cache` with the additions of the machine. -/
def Memory.storeChannelCacheUsize
    (cacheConfig : Option MessageCachePolicyConfig) (m : Memory)
    (key : ChannelCacheKey) (messages : List StoredMessage)
    (hasMoreBefore : Bool) : Memory :=
  match cacheConfig with
  | none => m
  | some config =>
      if messages.isEmpty then
        m.evictChannelCache key
      else
        let maxMessages := max config.maxMessages 1
        let minMessages := max (min config.minMessages config.maxMessages) 1
        let (deque, bytes) := fillChannelCacheUsize minMessages maxMessages
          config.perChannelBudgetBytes [] 0 (messages.take maxMessages)
        let m' := m.evictChannelCache key
        let entry : ChannelMessageCache :=
          { messages := deque
            estimatedBytes := bytes
            hasMoreBefore := hasMoreBefore }
        let m'' := { m' with
          channelCacheTotalBytes := saturatingAdd m'.channelCacheTotalBytes bytes
          channelMessageCache :=
            Function.update m'.channelMessageCache key (some entry) }
        (m''.touchCacheLru key).enforceGlobalCacheBudget config

theorem fillChannelCacheUsize_eq
    (minMessages maxMessages perBudget : Nat) {deque page : List StoredMessage}
    (h : estimateBytes deque + estimateBytes page ≤ usizeMax) :
    fillChannelCacheUsize minMessages maxMessages perBudget deque
        (estimateBytes deque) page =
      fillChannelCache minMessages maxMessages perBudget deque
        (estimateBytes deque) page := by
  induction page generalizing deque with
  | nil =>
      rfl
  | cons message page ih =>
      rw [estimateBytes_cons] at h
      have hbytes : estimateBytes deque + estimateMessageBytes message =
          estimateBytes (deque ++ [message]) := by
        simp [estimateBytes]
      have hkept := estimateBytes_le_of_sublist
        (shrink_sub_deque minMessages maxMessages perBudget (deque.length + 1)
          (deque ++ [message]) (estimateBytes (deque ++ [message]))).sublist
      unfold fillChannelCacheUsize fillChannelCache
      rw [saturatingAdd_eq (by omega), hbytes]
      dsimp only
      rw [shrink_bytes]
      exact ih (by omega)

/--
With a total inside the budget, a page that fits into memory beside the budget is stored
as if the counters had no bound.
-/
theorem storeChannelCacheUsize_eq
    {config : MessageCachePolicyConfig} {m : Memory} (key : ChannelCacheKey)
    {page : List StoredMessage} (hasMoreBefore : Bool)
    (htotal : m.channelCacheTotalBytes ≤ config.globalBudgetBytes)
    (hpage : config.globalBudgetBytes + estimateBytes page ≤ usizeMax) :
    m.storeChannelCacheUsize (some config) key page hasMoreBefore =
      m.storeChannelCache (some config) key page hasMoreBefore := by
  have htaken := estimateBytes_le_of_sublist
    (List.take_sublist (max config.maxMessages 1) page)
  have hnil : estimateBytes [] = 0 := rfl
  have hfill := @fillChannelCacheUsize_eq
    (max (min config.minMessages config.maxMessages) 1) (max config.maxMessages 1)
    config.perChannelBudgetBytes [] (page.take (max config.maxMessages 1))
    (by omega)
  rw [hnil] at hfill
  have hbytes : (config.fill page).2 ≤ estimateBytes page := by
    have hsum : (config.fill page).2 = estimateBytes (config.fill page).1 :=
      fillChannelCache_bytes _ _ _ [] _
    rw [hsum]
    exact estimateBytes_le_of_sublist (config.filled_sublist page)
  have hevicted : (m.evictChannelCache key).channelCacheTotalBytes ≤
      m.channelCacheTotalBytes := by
    have hdrop : (m.evictChannelCache key).channelCacheTotalBytes =
        m.channelCacheTotalBytes - m.timelines.weightAt estimatedBytes key :=
      congrArg Cache.total (timelines_evict m key)
    exact hdrop.trans_le (Nat.sub_le _ _)
  have hadd : saturatingAdd (m.evictChannelCache key).channelCacheTotalBytes
      (config.fill page).2 =
        (m.evictChannelCache key).channelCacheTotalBytes + (config.fill page).2 :=
    saturatingAdd_eq (by omega)
  unfold MessageCachePolicyConfig.fill at hadd
  unfold Memory.storeChannelCacheUsize Memory.storeChannelCache
  simp only [hfill, hadd]

end Saturation

section Main

/-- The estimate of the entry of a channel; nothing, where there is none. -/
def Memory.estimatedAt (m : Memory) (key : ChannelCacheKey) : Nat :=
  (m.channelMessageCache key).elim 0 estimatedBytes

/--
After every run of stores, hits, queries, invalidations and clears the total is the sum
over the entries and the LRU list has their channels once each, the one used longest ago
first.  The total covers every entry, so no subtraction is cut off, and it is within the
budget.  A store drops exactly the channels used longest ago that are needed for that,
and its counters do not saturate while the page fits into memory.
-/
theorem timelineCache_balanced (policy : Option MessageCachePolicyConfig)
    (actions : List CacheAction) :
    let s := run TimelineSession.step (TimelineSession.start policy) actions
    let m := s.memory
    (∃ keys : Finset ChannelCacheKey,
      (∀ key, key ∈ keys ↔ (m.channelMessageCache key).isSome) ∧
      m.channelCacheLru.Nodup ∧ m.channelCacheLru.toFinset = keys ∧
      m.channelCacheTotalBytes = ∑ key ∈ keys, m.estimatedAt key) ∧
    (∀ key, (m.evictChannelCache key).channelCacheTotalBytes + m.estimatedAt key =
      m.channelCacheTotalBytes) ∧
    m.channelCacheLru =
      s.used.dedup.filter (fun key => (m.channelMessageCache key).isSome) ∧
    (∀ key entry, m.channelMessageCache key = some entry →
      entry.estimatedBytes = (entry.messages.map estimateMessageBytes).sum) ∧
    (∀ config, s.policy = some config →
      m.channelCacheTotalBytes ≤ config.globalBudgetBytes ∧
      ∀ key page hasMoreBefore,
        (page ≠ [] → ∃ gone, Trimmed estimatedBytes config.globalBudgetBytes
          (m.timelines.insert estimatedBytes key (config.entry page hasMoreBefore))
          (m.storeChannelCache s.policy key page hasMoreBefore).timelines gone) ∧
        (config.globalBudgetBytes + estimateBytes page ≤ usizeMax →
          m.storeChannelCacheUsize s.policy key page hasMoreBefore =
            m.storeChannelCache s.policy key page hasMoreBefore)) := by
  intro s m
  have h : s.Sound := TimelineSession.sound_run policy actions
  refine ⟨⟨m.channelCacheLru.toFinset, fun key => ?_, h.accounted.nodup, rfl, ?_⟩,
    fun key => ?_, h.ordered, h.sized, fun config hpolicy =>
      ⟨h.within config hpolicy, fun key page hasMoreBefore => ⟨fun hpage => ?_,
        fun hfits => ?_⟩⟩⟩
  · rw [List.mem_toFinset]
    exact h.accounted.mem_order key
  · have hsum := List.sum_toFinset m.estimatedAt h.accounted.nodup
    exact h.accounted.total_eq.trans hsum.symm
  · have hexact := h.accounted.evict_exact key
    rw [← timelines_evict] at hexact
    exact hexact
  · exact (h.trimmed hpolicy key hpage hasMoreBefore).2
  · rw [hpolicy]
    exact storeChannelCacheUsize_eq key hasMoreBefore (h.within config hpolicy) hfits

end Main

end Session
end PrivchatSdk
