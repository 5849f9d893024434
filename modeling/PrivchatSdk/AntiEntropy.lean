import Mathlib.Data.List.TakeWhile
import Mathlib.Data.Prod.Lex
import PrivchatSdk.Lib.CursorScan
import PrivchatSdk.ChannelRepair

/-!
# Anti-entropy

A tick reads one page of the local channels behind a saved cursor, compares their
pts with the server's, and repairs the stale ones up to a budget.  The cursor is
saved behind the consumed part of the page, and starts over at the end.

A repair is a run of the channel's difference.  It leaves the positions of the other
channels alone; one that ends well has reached the server, and one that fails may have
come any part of the way.

The saved cursor is what makes the ticks a scan: every page without a failure
moves it past a channel, and what it passes has been repaired.  A repair that fails
leaves the tick before the cursor is saved, so the next tick comes back to the
same channel.  All channels that are behind are reached as long as no channel
whose repairs fail again and again comes before one of them in the scan
(`anti_entropy_keeps_up`).
-/

namespace PrivchatSdk

open CursorScan Difference

section Model

structure ChannelKey where
  channelId : Nat
  channelType : Int
  deriving DecidableEq, Repr

instance : LinearOrder ChannelKey :=
  LinearOrder.lift' (fun k => toLex (k.channelId, k.channelType)) (by
    intro k k' h
    cases k
    cases k'
    simpa using h)

theorem ChannelKey.lt_iff {k k' : ChannelKey} :
    k < k' ↔ k.channelId < k'.channelId ∨
      k.channelId = k'.channelId ∧ k.channelType < k'.channelType :=
  Prod.Lex.toLex_lt_toLex

/-- A row of `channel`, as far as the scan reads it. -/
structure ScanRow where
  key : ChannelKey
  isDeleted : Bool
  deriving DecidableEq, Repr

/-- The rows by their primary key; the sync stores no channel 0. -/
structure ChannelTable where
  rows : List ScanRow
  sorted : rows.Pairwise (fun r r' => r.key.channelId < r'.key.channelId)
  pos : ∀ r ∈ rows, 0 < r.key.channelId

def ChannelTable.identifiers (table : ChannelTable) : List ChannelKey :=
  (table.rows.filter (fun r => r.isDeleted = false)).map ScanRow.key

/-- The rows are read in the order of the key. -/
def ChannelTable.listChannelIdentifiersAfter (table : ChannelTable) (after : ChannelKey)
    (limit : Nat) : List ChannelKey :=
  (table.identifiers.filter (fun k =>
    after.channelId < k.channelId ∨
      k.channelId = after.channelId ∧ after.channelType < k.channelType)).take
    (max 1 (min limit 500))

structure AntiEntropyPage where
  pageScanned : Nat
  staleFound : Nat
  channelsRepaired : Nat
  deferred : Nat
  unknownChannels : Nat
  cycleCompleted : Bool
  deriving DecidableEq, Repr

def AntiEntropyPage.idle : AntiEntropyPage := ⟨0, 0, 0, 0, 0, false⟩

def AntiEntropyPage.isConverged (page : AntiEntropyPage) : Bool :=
  page.cycleCompleted && page.deferred == 0

structure AntiEntropyObservation where
  key : ChannelKey
  localPts : Nat
  serverPts : Option Nat
  deriving DecidableEq, Repr

structure AntiEntropyPlan where
  repair : List ChannelKey
  consumed : Nat
  lastConsumed : Option ChannelKey
  staleFound : Nat
  deferred : Nat
  unknownChannels : Nat
  deriving DecidableEq, Repr

/-- The loop of `plan_anti_entropy_page` over the observations that are left. -/
def planFrom (differenceBudget : Nat) :
    AntiEntropyPlan → List AntiEntropyObservation → AntiEntropyPlan
  | plan, [] => plan
  | plan, observation :: rest =>
      match observation.serverPts with
      | none =>
          planFrom differenceBudget
            { plan with
              unknownChannels := plan.unknownChannels + 1
              consumed := plan.consumed + 1
              lastConsumed := some observation.key } rest
      | some serverPts =>
          if serverPts ≤ observation.localPts then
            planFrom differenceBudget
              { plan with
                consumed := plan.consumed + 1
                lastConsumed := some observation.key } rest
          else if differenceBudget ≤ plan.repair.length then
            { plan with
              staleFound := plan.staleFound + 1
              deferred := plan.deferred + 1 }
          else
            planFrom differenceBudget
              { plan with
                staleFound := plan.staleFound + 1
                repair := plan.repair ++ [observation.key]
                consumed := plan.consumed + 1
                lastConsumed := some observation.key } rest

def planAntiEntropyPage (observations : List AntiEntropyObservation)
    (differenceBudget : Nat) : AntiEntropyPlan :=
  planFrom differenceBudget ⟨[], 0, none, 0, 0, 0⟩ observations

/-- The channel as the server names it; the types of channels are bytes there. -/
def ChannelKey.timeline (key : ChannelKey) : Difference.Timeline where
  channelId := key.channelId
  channelType := key.channelType.toNat

/--
The pts of a channel in the answer to `batch_get_channel_pts`.  A type that is no byte
is asked for as type 1, and what comes back is no row of the channel.
-/
def batchPts (server : PtsServer) (key : ChannelKey) : Option Nat :=
  if 0 ≤ key.channelType ∧ key.channelType < 256 ∧ server.known key.timeline = true then
    some (server.currentPts key.timeline)
  else
    none

/-- What the ticks of an account work with. -/
structure AntiEntropySetting where
  codec : Codec
  currentUid : Option Nat
  server : PtsServer
  pageSize : Nat
  differenceBudget : Nat

/-- What the repairs of a tick meet. -/
abbrev RepairScripts : Type :=
  ChannelKey → RepairScript

/-- The account's state as the ticks see it. -/
structure AntiEntropy where
  table : ChannelTable
  cursor : Option ChannelKey
  actor : SyncActor
  authenticated : Bool
  bootstrapCompleted : Bool

namespace AntiEntropy

variable (setting : AntiEntropySetting) (scripts : RepairScripts) (s : AntiEntropy)

def startCursor : ChannelKey := ⟨0, -1⟩

def loadAntiEntropyCursor : ChannelKey :=
  s.cursor.getD startCursor

def saveAntiEntropyCursor (key : ChannelKey) : AntiEntropy :=
  { s with cursor := some key }

/-- What `max_message_pts` finds. -/
def materializedPts (key : ChannelKey) : Nat :=
  match (maxMessagePts key.timeline (.calm 0) s.actor.store).1 with
  | .ok pts => pts
  | .error _ => 0

def localPts (key : ChannelKey) : Nat :=
  max ((s.actor.resumePts key.timeline).getD 0) (s.materializedPts key)

def observe (server : PtsServer) (key : ChannelKey) : AntiEntropyObservation where
  key := key
  localPts := s.localPts key
  serverPts := batchPts server key

/-- `resume_channel_difference`; the error names the channel. -/
def resumeChannelDifference (key : ChannelKey) : AntiEntropy × Except ChannelKey Unit :=
  let actor := s.actor.resumeRun setting.codec setting.currentUid setting.server
    (scripts key) key.timeline
  ({ s with actor := actor },
    if actor.completed = some key.timeline then .ok () else .error key)

/-- The repairs of a page, one after the other. -/
def repairPage (s : AntiEntropy) : List ChannelKey → AntiEntropy × Except ChannelKey Unit
  | [] => (s, .ok ())
  | key :: rest =>
      match s.resumeChannelDifference setting scripts key with
      | (s', .ok _) => repairPage s' rest
      | (s', .error failed) => (s', .error failed)

/-- The tick from its page on. -/
def scanPage (cycleCompleted : Bool) (channels : List ChannelKey) :
    AntiEntropy × Except ChannelKey AntiEntropyPage :=
  let plan := planAntiEntropyPage (channels.map (s.observe setting.server))
    setting.differenceBudget
  match s.repairPage setting scripts plan.repair with
  | (s', .error failed) => (s', .error failed)
  | (s', .ok _) =>
      let page : AntiEntropyPage :=
        { pageScanned := plan.consumed
          staleFound := plan.staleFound
          channelsRepaired := plan.repair.length
          deferred := plan.deferred
          unknownChannels := plan.unknownChannels
          cycleCompleted := cycleCompleted }
      if 0 < plan.deferred then
        match plan.lastConsumed with
        | some key => (s'.saveAntiEntropyCursor key, .ok page)
        | none => (s', .ok page)
      else if channels.length < setting.pageSize then
        (s'.saveAntiEntropyCursor startCursor, .ok { page with cycleCompleted := true })
      else
        match channels.getLast? with
        | some key => (s'.saveAntiEntropyCursor key, .ok page)
        | none => (s', .ok page)

/-- `run_anti_entropy_once`; the error names the channel that could not be repaired. -/
def runAntiEntropyOnce : AntiEntropy × Except ChannelKey AntiEntropyPage :=
  if s.authenticated = false ∨ s.bootstrapCompleted = false then
    (s, .ok .idle)
  else
    let after := s.loadAntiEntropyCursor
    let channels := s.table.listChannelIdentifiersAfter after setting.pageSize
    if channels = [] ∧ after.channelId ≠ 0 then
      let s' := s.saveAntiEntropyCursor startCursor
      let channels' := s.table.listChannelIdentifiersAfter startCursor setting.pageSize
      if channels' = [] then
        (s', .ok { AntiEntropyPage.idle with cycleCompleted := true })
      else
        scanPage setting scripts s' true channels'
    else if channels = [] then
      (s, .ok { AntiEntropyPage.idle with cycleCompleted := true })
    else
      scanPage setting scripts s false channels

/-- The server has commits that the channel lacks. -/
def Behind (server : PtsServer) (key : ChannelKey) : Prop :=
  match batchPts server key with
  | some pts => s.localPts key < pts
  | none => False

instance (server : PtsServer) (key : ChannelKey) : Decidable (s.Behind server key) := by
  unfold Behind
  cases batchPts server key
  · exact isFalse id
  · exact Nat.decLt _ _

/-- The saved position of the channel reaches the server's. -/
def Reached (server : PtsServer) (key : ChannelKey) : Prop :=
  ∀ pts, batchPts server key = some pts →
    pts ≤ (s.actor.resumePts key.timeline).getD 0

instance (server : PtsServer) (key : ChannelKey) : Decidable (s.Reached server key) := by
  unfold Reached
  cases batchPts server key with
  | none => exact isTrue (fun pts h => nomatch h)
  | some pts =>
      exact decidable_of_iff (pts ≤ (s.actor.resumePts key.timeline).getD 0)
        ⟨fun h pts' hpts' => Option.some.inj hpts' ▸ h, fun h => h pts rfl⟩

end AntiEntropy

end Model

section Planner

/-- The server is ahead of the channel. -/
def AntiEntropyObservation.Stale (observation : AntiEntropyObservation) : Prop :=
  match observation.serverPts with
  | some serverPts => observation.localPts < serverPts
  | none => False

instance (observation : AntiEntropyObservation) : Decidable observation.Stale := by
  unfold AntiEntropyObservation.Stale
  cases observation.serverPts
  · exact isFalse id
  · exact Nat.decLt _ _

/-- The planner consumes a prefix, repairs what is stale in it, and says why it stops. -/
structure PlanOf (differenceBudget : Nat) (start : AntiEntropyPlan)
    (observations : List AntiEntropyObservation) (plan : AntiEntropyPlan)
    (consumedPart rest : List AntiEntropyObservation) : Prop where
  split : observations = consumedPart ++ rest
  repair : plan.repair = start.repair ++
    (consumedPart.filter (fun o => o.Stale)).map AntiEntropyObservation.key
  consumed : plan.consumed = start.consumed + consumedPart.length
  lastConsumed : plan.lastConsumed =
    (consumedPart.getLast?.map AntiEntropyObservation.key).or start.lastConsumed
  stops : rest = [] ∧ plan.deferred = start.deferred ∨
    (∃ o ∈ rest.head?, o.Stale) ∧ differenceBudget ≤ plan.repair.length ∧
      plan.deferred = start.deferred + 1
  budget : start.repair.length ≤ differenceBudget → plan.repair.length ≤ differenceBudget

variable {differenceBudget : Nat}

theorem planFrom_spec (observations : List AntiEntropyObservation) :
    ∀ start : AntiEntropyPlan, ∃ consumedPart rest,
      PlanOf differenceBudget start observations
        (planFrom differenceBudget start observations) consumedPart rest := by
  induction observations with
  | nil =>
      intro start
      exact ⟨[], [], rfl, by simp [planFrom], rfl, rfl, .inl ⟨rfl, rfl⟩, id⟩
  | cons o observations ih =>
      intro start
      -- the observation goes to the front of what the rest consumes
      have hcons : ∀ next : AntiEntropyPlan,
          next.repair = start.repair ++ (if o.Stale then [o.key] else []) →
          next.consumed = start.consumed + 1 → next.lastConsumed = some o.key →
          next.deferred = start.deferred →
          (start.repair.length ≤ differenceBudget → next.repair.length ≤ differenceBudget) →
          ∃ consumedPart rest, PlanOf differenceBudget start (o :: observations)
            (planFrom differenceBudget next observations) consumedPart rest := by
        intro next hrepair hconsumed hlast hdeferred hbudget
        obtain ⟨consumedPart, rest, hplan⟩ := ih next
        refine ⟨o :: consumedPart, rest, ?_, ?_, ?_, ?_, ?_, ?_⟩
        · rw [hplan.split, List.cons_append]
        · rw [hplan.repair, hrepair, List.append_assoc]
          congr 1
          by_cases hstale : o.Stale
          · rw [if_pos hstale, List.filter_cons_of_pos (by simpa using hstale)]
            rfl
          · rw [if_neg hstale, List.filter_cons_of_neg (by simpa using hstale),
              List.nil_append]
        · rw [hplan.consumed, hconsumed, List.length_cons]
          omega
        · rw [hplan.lastConsumed, hlast, List.getLast?_cons]
          cases consumedPart.getLast? with
          | none => rfl
          | some last => rfl
        · rw [← hdeferred]
          exact hplan.stops
        · exact fun h => hplan.budget (hbudget h)
      cases hserver : o.serverPts with
      | none =>
          have hstale : ¬ o.Stale := by
            unfold AntiEntropyObservation.Stale
            rw [hserver]
            exact id
          simp only [planFrom, hserver]
          refine hcons _ ?_ rfl rfl rfl id
          rw [if_neg hstale, List.append_nil]
      | some serverPts =>
          have hiff : o.Stale ↔ o.localPts < serverPts := by
            unfold AntiEntropyObservation.Stale
            rw [hserver]
          simp only [planFrom, hserver]
          split
          · rename_i hle
            refine hcons _ ?_ rfl rfl rfl id
            rw [if_neg (fun h => absurd (hiff.mp h) (Nat.not_lt.mpr hle)), List.append_nil]
          · rename_i hless
            have hstale : o.Stale := hiff.mpr (Nat.lt_of_not_le hless)
            split
            · rename_i hfull
              refine ⟨[], o :: observations, rfl, ?_, rfl, rfl, .inr ⟨?_, hfull, rfl⟩, id⟩
              · simp
              · exact ⟨o, rfl, hstale⟩
            · rename_i hroom
              refine hcons _ ?_ rfl rfl rfl ?_
              · rw [if_pos hstale]
              · intro _
                simp only [List.length_append, List.length_singleton]
                omega

/-- Nothing stale is passed without a repair, and the budget is kept. -/
theorem planAntiEntropyPage_sound (observations : List AntiEntropyObservation)
    (differenceBudget : Nat) :
    (∀ o ∈ observations.take (planAntiEntropyPage observations differenceBudget).consumed,
      o.Stale → o.key ∈ (planAntiEntropyPage observations differenceBudget).repair) ∧
    (planAntiEntropyPage observations differenceBudget).repair.length ≤
      differenceBudget := by
  obtain ⟨consumedPart, rest, hplan⟩ :=
    @planFrom_spec differenceBudget observations ⟨[], 0, none, 0, 0, 0⟩
  refine ⟨fun o ho hstale => ?_, hplan.budget (Nat.zero_le _)⟩
  have hconsumed : (planAntiEntropyPage observations differenceBudget).consumed =
      consumedPart.length := by
    exact hplan.consumed.trans (Nat.zero_add _)
  rw [hconsumed, hplan.split, List.take_left] at ho
  have hrepair : (planAntiEntropyPage observations differenceBudget).repair =
      (consumedPart.filter (fun o => o.Stale)).map AntiEntropyObservation.key := hplan.repair
  rw [hrepair]
  exact List.mem_map_of_mem (List.mem_filter.mpr ⟨ho, decide_eq_true hstale⟩)

end Planner

section Repairs

theorem batchPts_eq {server : PtsServer} {key : ChannelKey} {pts : Nat}
    (h : batchPts server key = some pts) :
    0 ≤ key.channelType ∧ pts = server.currentPts key.timeline := by
  unfold batchPts at h
  split at h
  · rename_i hknown
    exact ⟨hknown.1, (Option.some.inj h).symm⟩
  · cases h

/-- Two channels that the server knows are one if it names them alike. -/
theorem ChannelKey.timeline_inj {key key' : ChannelKey} (hpos : 0 ≤ key.channelType)
    (hpos' : 0 ≤ key'.channelType) (h : key.timeline = key'.timeline) : key = key' := by
  obtain ⟨channelId, channelType⟩ := key
  obtain ⟨channelId', channelType'⟩ := key'
  unfold timeline at h
  simp only [Difference.Timeline.mk.injEq, ChannelKey.mk.injEq] at h hpos hpos' ⊢
  omega

namespace AntiEntropy

variable {setting : AntiEntropySetting} {server : PtsServer} {s s' : AntiEntropy}

theorem Reached.not_behind {key : ChannelKey} (h : s.Reached server key) :
    ¬ s.Behind server key := by
  unfold Behind localPts
  split
  · rename_i pts hpts
    have hreached := h pts hpts
    omega
  · exact id

theorem behind_congr (h : s'.actor = s.actor) {key : ChannelKey} :
    s'.Behind server key ↔ s.Behind server key := by
  unfold Behind localPts materializedPts
  rw [h]

/-- The same channels and the same cursor. -/
structure SameScan (s s' : AntiEntropy) : Prop where
  table : s'.table = s.table
  cursor : s'.cursor = s.cursor
  authenticated : s'.authenticated = s.authenticated
  bootstrapCompleted : s'.bootstrapCompleted = s.bootstrapCompleted

theorem SameScan.refl (s : AntiEntropy) : SameScan s s := ⟨rfl, rfl, rfl, rfl⟩

theorem SameScan.trans {s'' : AntiEntropy} (h : SameScan s s') (h' : SameScan s' s'') :
    SameScan s s'' where
  table := h'.table.trans h.table
  cursor := h'.cursor.trans h.cursor
  authenticated := h'.authenticated.trans h.authenticated
  bootstrapCompleted := h'.bootstrapCompleted.trans h.bootstrapCompleted

theorem materializedPts_eq {key : ChannelKey} {env : Env} {pts : Nat}
    (h : (maxMessagePts key.timeline env s.actor.store).1 = .ok pts) :
    s.materializedPts key = pts := by
  have hfound : maxMessagePts key.timeline env s.actor.store =
      (.ok pts, (maxMessagePts key.timeline env s.actor.store).2) := Prod.ext h rfl
  obtain ⟨-, hvalue, -⟩ := query_ok.mp hfound
  have hcalm : maxMessagePts key.timeline (.calm 0) s.actor.store =
      (.ok pts, s.actor.store) := query_ok.mpr ⟨rfl, hvalue, rfl⟩
  unfold materializedPts
  rw [hcalm]

variable {scripts : RepairScripts}

/-- A repair that succeeds has brought its channel up to the server. -/
theorem resumeChannelDifference_reached {key : ChannelKey}
    (hbehind : s.Behind setting.server key)
    (hok : (s.resumeChannelDifference setting scripts key).2 = .ok ()) :
    (s.resumeChannelDifference setting scripts key).1.Reached setting.server key := by
  intro pts hpts
  obtain ⟨-, rfl⟩ := batchPts_eq hpts
  unfold Behind at hbehind
  rw [hpts] at hbehind
  unfold resumeChannelDifference at hok
  dsimp only at hok
  split at hok
  · rename_i hcompleted
    refine resumeRun_reaches _ _ _ _ (fun pts hfound => ?_) hcompleted
    rw [max_comm, ← materializedPts_eq hfound]
    exact hbehind
  · cases hok

/-- What the repairs of a page leave, whether one of them failed or not. -/
structure Repaired (setting : AntiEntropySetting) (s : AntiEntropy) (keys : List ChannelKey)
    (r : AntiEntropy × Except ChannelKey Unit) : Prop where
  same : SameScan s r.1
  others : ∀ t, t ∉ keys.map ChannelKey.timeline →
    r.1.actor.resumePts t = s.actor.resumePts t
  idle : keys = [] → r = (s, .ok ())
  failed : ∀ x, r.2 = .error x → x ∈ keys
  /-- The first channel is repaired, or its repair is what failed. -/
  first : ∀ key ∈ keys.head?, s.Behind setting.server key →
    r.2 = .error key ∨ r.1.Reached setting.server key

theorem repairPage_repaired (keys : List ChannelKey) :
    ∀ s : AntiEntropy, (keys.map ChannelKey.timeline).Nodup →
      Repaired setting s keys (s.repairPage setting scripts keys) := by
  induction keys with
  | nil =>
      intro s _
      refine ⟨.refl s, fun _ _ => rfl, fun _ => rfl, fun x h => ?_, fun key h => ?_⟩
      · cases h
      · cases h
  | cons key keys ih =>
      intro s hnodup
      rw [List.map_cons, List.nodup_cons] at hnodup
      obtain ⟨hnew, hrest⟩ := hnodup
      have hothers : ∀ t, t ≠ key.timeline →
          (s.resumeChannelDifference setting scripts key).1.actor.resumePts t =
            s.actor.resumePts t := fun t ht => resumeRun_others _ _ _ _ ht
      have hreached := @resumeChannelDifference_reached setting s scripts key
      have hsame : SameScan s (s.resumeChannelDifference setting scripts key).1 :=
        ⟨rfl, rfl, rfl, rfl⟩
      have hnamed : ∀ x, (s.resumeChannelDifference setting scripts key).2 = .error x →
          x = key := by
        intro x hx
        unfold resumeChannelDifference at hx
        dsimp only at hx
        split at hx
        · cases hx
        · exact (Except.error.inj hx).symm
      unfold repairPage
      rcases hrun : s.resumeChannelDifference setting scripts key with ⟨s₁, x | ⟨⟩⟩
      all_goals rw [hrun] at hothers hreached hsame hnamed
      · obtain rfl := hnamed x rfl
        refine ⟨hsame, fun t ht => hothers t (fun h => ht ?_), nofun, ?_, ?_⟩
        · rw [h, List.map_cons]
          exact List.mem_cons_self
        · intro y hy
          cases hy
          exact List.mem_cons_self
        · intro y hy _
          cases hy
          exact .inl rfl
      · have hlater := ih s₁ hrest
        refine ⟨hsame.trans hlater.same, fun t ht => ?_, nofun, ?_, ?_⟩
        · rw [List.map_cons, List.mem_cons, not_or] at ht
          exact (hlater.others t ht.2).trans (hothers t ht.1)
        · exact fun x hx => List.mem_cons_of_mem _ (hlater.failed x hx)
        · rintro y hy hbehind
          cases hy
          refine .inr (fun pts hpts => ?_)
          rw [hlater.others _ hnew]
          exact hreached hbehind rfl pts hpts

/-- The repairs of channels that are behind undo no other one. -/
theorem Repaired.reached {keys : List ChannelKey}
    {r : AntiEntropy × Except ChannelKey Unit} (h : Repaired setting s keys r)
    (hkeys : ∀ key ∈ keys, s.Behind setting.server key) {c : ChannelKey}
    (hc : s.Reached setting.server c) : r.1.Reached setting.server c := by
  intro pts hpts
  rw [h.others c.timeline]
  · exact hc pts hpts
  · intro hin
    obtain ⟨key, hkey, htimeline⟩ := List.mem_map.mp hin
    have hbehind := hkeys key hkey
    obtain ⟨pts', hpts'⟩ : ∃ pts', batchPts setting.server key = some pts' := by
      unfold Behind at hbehind
      split at hbehind
      · rename_i pts' hpts'
        exact ⟨pts', hpts'⟩
      · exact hbehind.elim
    obtain rfl := ChannelKey.timeline_inj (batchPts_eq hpts').1 (batchPts_eq hpts).1 htimeline
    exact hc.not_behind hbehind

end AntiEntropy

end Repairs

section Scan

namespace ChannelTable

variable (table : ChannelTable)

theorem identifiers_sorted : table.identifiers.Pairwise (· < ·) := by
  unfold identifiers
  rw [List.pairwise_map]
  refine (table.sorted.filter _).imp ?_
  intro r r' h
  exact ChannelKey.lt_iff.mpr (.inl h)

theorem start_lt : ∀ c ∈ table.identifiers, AntiEntropy.startCursor < c := by
  intro c hc
  obtain ⟨r, hr, rfl⟩ := List.mem_map.mp hc
  exact ChannelKey.lt_iff.mpr (.inl (table.pos r (List.mem_of_mem_filter hr)))

/-- No two channels are one to the server. -/
theorem timelines_nodup : (table.identifiers.map ChannelKey.timeline).Nodup := by
  unfold List.Nodup identifiers
  rw [List.pairwise_map, List.pairwise_map]
  refine (table.sorted.filter _).imp ?_
  intro r r' hless heq
  have hid : r.key.channelId = r'.key.channelId := congrArg Difference.Timeline.channelId heq
  omega

/-- The query reads the beginning of what comes after the cursor. -/
theorem listChannelIdentifiersAfter_eq {limit : Nat} (hpos : 0 < limit)
    (after : ChannelKey) :
    table.listChannelIdentifiersAfter after limit =
      (ahead table.identifiers after).take (min limit 500) := by
  have hlimit : max 1 (min limit 500) = min limit 500 := by omega
  unfold listChannelIdentifiersAfter ahead
  rw [hlimit]
  congr 1
  refine List.filter_congr (fun k _ => ?_)
  rw [decide_eq_decide, ChannelKey.lt_iff, eq_comm (a := k.channelId)]

end ChannelTable

namespace AntiEntropy

variable (server : PtsServer) (s : AntiEntropy)

/-- The channels in the order in which the next ticks come to them. -/
def scan : List ChannelKey :=
  scanFrom s.table.identifiers s.loadAntiEntropyCursor

/-- The channels that are behind, in the order of the scan. -/
def pending : List ChannelKey :=
  s.scan.filter (fun c => s.Behind server c)

/-- The channels that are not behind before the first that is. -/
def gap : Nat :=
  (s.scan.takeWhile (fun c => ¬ s.Behind server c)).length

theorem gap_le : s.gap server ≤ s.table.identifiers.length := by
  have hall := congrArg List.length
    (passed_append_ahead s.table.identifiers_sorted s.loadAntiEntropyCursor)
  have hgap : s.gap server ≤ s.scan.length := (List.takeWhile_prefix _).length_le
  rw [List.length_append] at hall
  rw [scan, scanFrom, List.length_append] at hgap
  omega

variable {server s}

theorem mem_pending {c : ChannelKey} :
    c ∈ s.pending server ↔ c ∈ s.table.identifiers ∧ s.Behind server c := by
  rw [pending, List.mem_filter, decide_eq_true_eq, scan, mem_scanFrom]

end AntiEntropy

end Scan

section Rounds

namespace AntiEntropy

variable {setting : AntiEntropySetting} {scripts : RepairScripts} {s s' : AntiEntropy}

/-- What one tick does. -/
structure Round (setting : AntiEntropySetting) (s : AntiEntropy)
    (r : AntiEntropy × Except ChannelKey AntiEntropyPage) : Prop where
  table : r.1.table = s.table
  authenticated : r.1.authenticated = s.authenticated
  bootstrapCompleted : r.1.bootstrapCompleted = s.bootstrapCompleted
  advances : ∀ page, r.2 = .ok page → s.table.identifiers ≠ [] →
    0 < page.pageScanned ∧ r.1.scan = s.scan.rotate page.pageScanned
  budget : ∀ page, r.2 = .ok page → page.channelsRepaired ≤ setting.differenceBudget
  reached : ∀ c, s.Reached setting.server c → r.1.Reached setting.server c
  failed : ∀ x, r.2 = .error x → x ∈ s.pending setting.server
  /-- The first channel that is behind fails, is repaired, or comes nearer. -/
  progress : ∀ c, (s.pending setting.server).head? = some c →
    r.2 = .error c ∨ r.1.Reached setting.server c ∨
      r.1.actor = s.actor ∧ r.1.gap setting.server < s.gap setting.server
  /-- With nothing behind the tick reports it, or comes nearer to the end. -/
  converges : s.pending setting.server = [] → r.1.actor = s.actor ∧
    ∃ page, r.2 = .ok page ∧ page.deferred = 0 ∧ (page.cycleCompleted = true ∨
      (ahead r.1.table.identifiers r.1.loadAntiEntropyCursor).length <
        (ahead s.table.identifiers s.loadAntiEntropyCursor).length)

/-- The page is what comes next, and a short one is the last. -/
structure PageOf (pageSize : Nat) (s : AntiEntropy) (channels : List ChannelKey) : Prop where
  nonempty : channels ≠ []
  next : ∃ later, ahead s.table.identifiers s.loadAntiEntropyCursor = channels ++ later ∧
    (channels.length < pageSize → later = [])

/-- The consumed part of a page. -/
structure Consumed (setting : AntiEntropySetting) (s : AntiEntropy)
    (channels : List ChannelKey) (plan : AntiEntropyPlan) (done rest : List ChannelKey) :
    Prop where
  split : channels = done ++ rest
  nonempty : done ≠ []
  repair : plan.repair = done.filter (fun c => s.Behind setting.server c)
  consumed : plan.consumed = done.length
  lastConsumed : plan.lastConsumed = done.getLast?
  stops : rest = [] ∧ plan.deferred = 0 ∨
    (∃ c ∈ rest.head?, s.Behind setting.server c) ∧ plan.deferred = 1
  budget : plan.repair.length ≤ setting.differenceBudget

theorem exists_consumed (hbudget : 0 < setting.differenceBudget)
    {channels : List ChannelKey} (hchannels : channels ≠ []) :
    ∃ done rest, Consumed setting s channels
      (planAntiEntropyPage (channels.map (s.observe setting.server))
        setting.differenceBudget) done rest := by
  obtain ⟨consumedPart, rest, hplan⟩ :=
    @planFrom_spec setting.differenceBudget (channels.map (s.observe setting.server))
      ⟨[], 0, none, 0, 0, 0⟩
  obtain ⟨done, rest', hsplit, hdone, hrest⟩ := List.map_eq_append_iff.mp hplan.split
  subst hdone hrest
  have hkeys : ∀ keys : List ChannelKey,
      (keys.map (s.observe setting.server)).map AntiEntropyObservation.key = keys := by
    intro keys
    rw [List.map_map]
    exact List.map_id' keys
  have hrepair : (planAntiEntropyPage (channels.map (s.observe setting.server))
      setting.differenceBudget).repair =
        done.filter (fun c => s.Behind setting.server c) := by
    refine hplan.repair.trans ?_
    rw [List.nil_append, List.filter_map, hkeys]
    rfl
  have hstops := hplan.stops
  refine ⟨done, rest', hsplit, ?_, hrepair, ?_, ?_, ?_, hplan.budget (Nat.zero_le _)⟩
  · -- the first channel is consumed, as there is room for its repair
    rintro rfl
    rcases hstops with ⟨hnil, -⟩ | ⟨-, hfull, -⟩
    · rw [List.map_eq_nil_iff] at hnil
      rw [hnil, List.append_nil] at hsplit
      exact hchannels hsplit
    · have hnone : (planFrom setting.differenceBudget ⟨[], 0, none, 0, 0, 0⟩
          (channels.map (s.observe setting.server))).repair = [] := hrepair
      rw [hnone, List.length_nil] at hfull
      omega
  · refine hplan.consumed.trans ?_
    rw [List.length_map, Nat.zero_add]
  · refine hplan.lastConsumed.trans ?_
    rw [List.getLast?_map, Option.map_map, Option.or_none]
    exact Option.map_id'
  · rcases hstops with ⟨hnil, hdeferred⟩ | ⟨⟨o, ho, hstale⟩, -, hdeferred⟩
    · exact .inl ⟨List.map_eq_nil_iff.mp hnil, hdeferred⟩
    · refine .inr ⟨?_, hdeferred⟩
      rw [Option.mem_def, List.head?_map, Option.map_eq_some_iff] at ho
      obtain ⟨c, hc, rfl⟩ := ho
      exact ⟨c, hc, hstale⟩

section Pages

variable {channels done rest : List ChannelKey} {plan : AntiEntropyPlan}

theorem Consumed.scan_eq (hplan : Consumed setting s channels plan done rest)
    (hpage : PageOf setting.pageSize s channels) :
    ∃ w, s.scan = done ++ w ∧ s.scan.rotate done.length = w ++ done ∧
      ((∃ c ∈ rest.head?, s.Behind setting.server c) →
        ∃ c ∈ w, s.Behind setting.server c) := by
  obtain ⟨later, hahead, -⟩ := hpage.next
  refine ⟨rest ++ later ++ passed s.table.identifiers s.loadAntiEntropyCursor, ?_, ?_, ?_⟩
  · rw [scan, scanFrom, hahead, hplan.split]
    simp only [List.append_assoc]
  · rw [scan, scanFrom, hahead, hplan.split, List.append_assoc, List.append_assoc,
      List.rotate_append_length_eq]
    simp only [List.append_assoc]
  · rintro ⟨c, hc, hbehind⟩
    refine ⟨c, ?_, hbehind⟩
    simp only [List.mem_append]
    exact .inl (.inl (List.mem_of_mem_head? hc))

/-- The channels to repair are the first of those that are behind. -/
theorem Consumed.pending_eq (hplan : Consumed setting s channels plan done rest)
    {w : List ChannelKey} (hscan : s.scan = done ++ w) :
    s.pending setting.server =
      plan.repair ++ w.filter (fun c => s.Behind setting.server c) := by
  rw [pending, hscan, List.filter_append, hplan.repair]

theorem Consumed.behind (hplan : Consumed setting s channels plan done rest) :
    ∀ key ∈ plan.repair, s.Behind setting.server key := by
  intro key hkey
  rw [hplan.repair] at hkey
  exact of_decide_eq_true (List.mem_filter.mp hkey).2

/-- The channels to repair are different ones to the server. -/
theorem Consumed.timelines_nodup (hplan : Consumed setting s channels plan done rest)
    (hpage : PageOf setting.pageSize s channels) :
    (plan.repair.map ChannelKey.timeline).Nodup := by
  obtain ⟨later, hahead, -⟩ := hpage.next
  have hdone : plan.repair.Sublist done := hplan.repair ▸ List.filter_sublist
  have hchannels : done.Sublist channels := hplan.split ▸ List.sublist_append_left _ _
  have hnext : channels.Sublist (ahead s.table.identifiers s.loadAntiEntropyCursor) :=
    hahead ▸ List.sublist_append_left _ _
  have hall := ((hdone.trans hchannels).trans hnext).trans List.filter_sublist
  exact s.table.timelines_nodup.sublist (hall.map _)

/-- Where the tick saves the cursor, the scan goes on behind what it consumed. -/
theorem Consumed.rotates (hplan : Consumed setting s channels plan done rest)
    (hpage : PageOf setting.pageSize s channels)
    (hsame : SameScan s s') {key : ChannelKey}
    (hkey : done.getLast? = some key ∨
      key = startCursor ∧ rest = [] ∧ channels.length < setting.pageSize) :
    (s'.saveAntiEntropyCursor key).scan = s.scan.rotate done.length := by
  obtain ⟨later, hahead, hshort⟩ := hpage.next
  have htable : (s'.saveAntiEntropyCursor key).table = s.table := hsame.table
  have hcursor : (s'.saveAntiEntropyCursor key).loadAntiEntropyCursor = key := rfl
  rw [scan, htable, hcursor, scan]
  rcases hkey with hlast | ⟨rfl, hrest, hless⟩
  · obtain ⟨init, hinit⟩ := List.getLast?_eq_some_iff.mp hlast
    rw [hinit]
    refine scanFrom_advance (v := rest ++ later) s.table.identifiers_sorted ?_
    rw [hahead, hplan.split, hinit, List.append_assoc]
  · rw [(scanFrom_start s.table.start_lt).2, scanFrom, hahead, hshort hless,
      List.append_nil, hplan.split, hrest, List.append_nil, List.rotate_append_length_eq]
    have hall := passed_append_ahead s.table.identifiers_sorted s.loadAntiEntropyCursor
    rw [hahead, hshort hless, List.append_nil, hplan.split, hrest, List.append_nil] at hall
    exact hall.symm

/-- A page with nothing to repair brings the first channel that is behind nearer. -/
theorem gap_of_rotated {server : PtsServer} {w : List ChannelKey}
    (hscan : s.scan = done ++ w) (hscan' : s'.scan = w ++ done) (hnonempty : done ≠ [])
    (hclean : ∀ c ∈ done, ¬ s.Behind server c) (hactor : s'.actor = s.actor)
    (hpending : s.pending server ≠ []) : s'.gap server < s.gap server := by
  obtain ⟨c, hc⟩ := List.exists_mem_of_ne_nil _ hpending
  obtain ⟨hin, hc⟩ := List.mem_filter.mp hc
  rw [decide_eq_true_eq] at hc
  rw [hscan, List.mem_append] at hin
  have hcw : c ∈ w := hin.resolve_left (fun h => hclean c h hc)
  have hsame : (fun c => decide (¬ s'.Behind server c)) =
      fun c => decide (¬ s.Behind server c) := by
    funext c
    rw [decide_eq_decide, behind_congr hactor]
  have hstop : (w.takeWhile (fun c => ¬ s.Behind server c)).length ≠ w.length := by
    intro hlength
    have hall := (List.takeWhile_prefix (fun c => decide (¬ s.Behind server c))).eq_of_length
      hlength
    rw [List.takeWhile_eq_self_iff] at hall
    exact absurd hc (of_decide_eq_true (hall c hcw))
  have hpos := List.length_pos_of_ne_nil hnonempty
  rw [gap, gap, hscan, hscan', hsame, List.takeWhile_append, if_neg hstop,
    List.takeWhile_append_of_pos (fun c hc => decide_eq_true (hclean c hc)),
    List.length_append]
  omega

/-- A tick whose repairs all succeed moves on behind what it consumed. -/
theorem Consumed.round_ok (hplan : Consumed setting s channels plan done rest)
    (hpage : PageOf setting.pageSize s channels)
    (hrepaired : Repaired setting s plan.repair (s', .ok ())) {key : ChannelKey}
    (hkey : done.getLast? = some key ∨
      key = startCursor ∧ rest = [] ∧ channels.length < setting.pageSize)
    {page : AntiEntropyPage} (hscanned : page.pageScanned = plan.consumed)
    (hcount : page.channelsRepaired = plan.repair.length)
    (hdeferred : page.deferred = plan.deferred)
    (hcycle : done.getLast? ≠ some key → page.cycleCompleted = true) :
    Round setting s (s'.saveAntiEntropyCursor key, .ok page) := by
  have hsame : SameScan s s' := hrepaired.same
  have hrotate := hplan.rotates hpage hsame hkey
  obtain ⟨w, hscan, hrotated, hstop⟩ := hplan.scan_eq hpage
  have hpending := hplan.pending_eq hscan
  have hidle : plan.repair = [] → s' = s := by
    intro hnone
    exact congrArg Prod.fst (hrepaired.idle hnone)
  refine ⟨hsame.table, hsame.authenticated, hsame.bootstrapCompleted, ?_, ?_, ?_, nofun, ?_,
    ?_⟩
  · rintro page' hpage' -
    cases hpage'
    rw [hscanned, hplan.consumed]
    exact ⟨List.length_pos_of_ne_nil hplan.nonempty, hrotate⟩
  · rintro page' hpage'
    cases hpage'
    rw [hcount]
    exact hplan.budget
  · exact fun c hc => hrepaired.reached hplan.behind hc
  · intro c hc
    right
    cases hrepair : plan.repair with
    | nil =>
        right
        have hclean : ∀ c ∈ done, ¬ s.Behind setting.server c := by
          intro c hc hbehind
          have hin : c ∈ plan.repair := by
            rw [hplan.repair]
            exact List.mem_filter.mpr ⟨hc, decide_eq_true hbehind⟩
          rw [hrepair] at hin
          cases hin
        have hactor : (s'.saveAntiEntropyCursor key).actor = s.actor := by
          rw [hidle hrepair]
          rfl
        refine ⟨hactor, gap_of_rotated hscan (hrotate.trans hrotated) hplan.nonempty hclean
          hactor ?_⟩
        exact List.ne_nil_of_mem (List.mem_of_mem_head? hc)
    | cons first others =>
        left
        have hfirst : c = first := by
          rw [hpending, hrepair] at hc
          exact (Option.some.inj hc).symm
        have hreached := hrepaired.first first (by rw [hrepair]; rfl)
          (hplan.behind first (by rw [hrepair]; exact List.mem_cons_self))
        rw [hfirst]
        exact hreached.resolve_left nofun
  · intro hnone
    have hrepair : plan.repair = [] := (List.append_eq_nil_iff.mp (hpending ▸ hnone)).1
    have hclean : ∀ c ∈ s.scan, ¬ s.Behind setting.server c := by
      intro c hc
      have hfilter := List.filter_eq_nil_iff.mp hnone c hc
      simpa using hfilter
    have hrest : rest = [] ∧ plan.deferred = 0 := by
      refine hplan.stops.resolve_right (fun h => ?_)
      obtain ⟨c, hc, hc'⟩ := hstop h.1
      refine hclean c ?_ hc'
      rw [hscan]
      exact List.mem_append_right _ hc
    refine ⟨?_, page, rfl, hdeferred.trans hrest.2, ?_⟩
    · rw [hidle hrepair]
      rfl
    · by_cases hlast : done.getLast? = some key
      · right
        obtain ⟨later, hahead, -⟩ := hpage.next
        obtain ⟨init, hinit⟩ := List.getLast?_eq_some_iff.mp hlast
        have hmoved : ahead s.table.identifiers key = later := by
          rw [hplan.split, hrest.1, List.append_nil, hinit] at hahead
          exact (split_advance s.table.identifiers_sorted hahead).1
        have htable : (s'.saveAntiEntropyCursor key).table = s.table := hsame.table
        have hcursor : (s'.saveAntiEntropyCursor key).loadAntiEntropyCursor = key := rfl
        dsimp only
        rw [htable, hcursor, hmoved, hahead, List.length_append]
        have hpos := List.length_pos_of_ne_nil hpage.nonempty
        omega
      · exact .inl (hcycle hlast)

/-- A tick with a failing repair comes back to the same place. -/
theorem Consumed.round_failed (hplan : Consumed setting s channels plan done rest)
    (hpage : PageOf setting.pageSize s channels) {x : ChannelKey}
    (hrepaired : Repaired setting s plan.repair (s', .error x)) :
    Round setting s (s', .error x) := by
  have hsame : SameScan s s' := hrepaired.same
  obtain ⟨w, hscan, -, -⟩ := hplan.scan_eq hpage
  have hpending := hplan.pending_eq hscan
  have hx : x ∈ plan.repair := hrepaired.failed x rfl
  have hin : x ∈ s.pending setting.server := by
    rw [hpending]
    exact List.mem_append_left _ hx
  refine ⟨hsame.table, hsame.authenticated, hsame.bootstrapCompleted, nofun, nofun, ?_, ?_,
    ?_, ?_⟩
  · exact fun c hc => hrepaired.reached hplan.behind hc
  · intro y hy
    cases hy
    exact hin
  · intro c hc
    obtain ⟨first, others, hrepair⟩ := List.exists_cons_of_ne_nil (List.ne_nil_of_mem hx)
    have hfirst : c = first := by
      rw [hpending, hrepair] at hc
      exact (Option.some.inj hc).symm
    rw [hfirst]
    rcases hrepaired.first first (by rw [hrepair]; rfl)
      (hplan.behind first (by rw [hrepair]; exact List.mem_cons_self)) with hfailed | hreached
    · left
      cases hfailed
      rfl
    · exact .inr (.inl hreached)
  · intro hnone
    rw [hnone] at hin
    cases hin

end Pages

theorem scanPage_round (hbudget : 0 < setting.differenceBudget) {channels : List ChannelKey}
    (hpage : PageOf setting.pageSize s channels) (cycleCompleted : Bool) :
    Round setting s (s.scanPage setting scripts cycleCompleted channels) := by
  obtain ⟨done, rest, hplan⟩ := @exists_consumed setting s hbudget channels hpage.nonempty
  unfold scanPage
  generalize planAntiEntropyPage (channels.map (s.observe setting.server))
    setting.differenceBudget = plan at hplan
  have hrepaired : Repaired setting s plan.repair (s.repairPage setting scripts plan.repair) :=
    repairPage_repaired plan.repair s (hplan.timelines_nodup hpage)
  dsimp only
  rcases hrun : s.repairPage setting scripts plan.repair with ⟨s', x | ⟨⟩⟩
  all_goals rw [hrun] at hrepaired
  · exact hplan.round_failed hpage hrepaired
  · dsimp only
    obtain ⟨init, last, hdone⟩ : ∃ init last, done = init ++ [last] :=
      ⟨_, _, (List.dropLast_append_getLast hplan.nonempty).symm⟩
    have hlast : done.getLast? = some last := by
      rw [hdone, List.getLast?_append_cons]
      rfl
    split
    · rw [hplan.lastConsumed, hlast]
      exact hplan.round_ok hpage hrepaired (.inl hlast) rfl rfl rfl (fun h => (h hlast).elim)
    · rename_i hnone
      have hrest : rest = [] := by
        rcases hplan.stops with ⟨hrest, -⟩ | ⟨-, hdeferred⟩
        · exact hrest
        · omega
      split
      · rename_i hshort
        exact hplan.round_ok hpage hrepaired (.inr ⟨rfl, hrest, hshort⟩) rfl rfl rfl
          (fun _ => rfl)
      · have hchannels : channels.getLast? = some last := by
          rw [hplan.split, hrest, List.append_nil, hlast]
        rw [hchannels]
        exact hplan.round_ok hpage hrepaired (.inl hlast) rfl rfl rfl
          (fun h => (h hlast).elim)

/-- The end of a scan is kept when the tick started over. -/
theorem scanPage_cycle {channels : List ChannelKey} {page : AntiEntropyPage}
    (hpage : (s.scanPage setting scripts true channels).2 = .ok page) :
    page.cycleCompleted = true := by
  unfold scanPage at hpage
  dsimp only at hpage
  generalize s.repairPage setting scripts _ = repaired at hpage
  obtain ⟨s', x | ⟨⟩⟩ := repaired
  · cases hpage
  · dsimp only at hpage
    split at hpage
    · split at hpage
      all_goals
        cases hpage
        rfl
    · split at hpage
      · cases hpage
        rfl
      · split at hpage
        all_goals
          cases hpage
          rfl

theorem pageOf_list {pageSize : Nat} (hpos : 0 < pageSize)
    (hcap : pageSize ≤ 500 ∨ s.table.identifiers.length ≤ 500)
    {after : ChannelKey} (hcursor : s.loadAntiEntropyCursor = after)
    (hnonempty : s.table.listChannelIdentifiersAfter after pageSize ≠ []) :
    PageOf pageSize s (s.table.listChannelIdentifiersAfter after pageSize) := by
  refine ⟨hnonempty, ?_⟩
  rw [s.table.listChannelIdentifiersAfter_eq hpos, hcursor]
  refine ⟨_, (List.take_append_drop _ _).symm, fun hshort => ?_⟩
  have hlength : (ahead s.table.identifiers after).length ≤ s.table.identifiers.length :=
    List.length_filter_le _ _
  rw [List.length_take] at hshort
  exact List.drop_eq_nil_of_le (by omega)

/-- Without a channel there is nothing to scan. -/
theorem round_idle (hnone : s.table.identifiers = []) (htable : s'.table = s.table)
    (hauthenticated : s'.authenticated = s.authenticated)
    (hbootstrap : s'.bootstrapCompleted = s.bootstrapCompleted)
    (hactor : s'.actor = s.actor) :
    Round setting s (s', .ok { AntiEntropyPage.idle with cycleCompleted := true }) := by
  have hpending : s.pending setting.server = [] := by
    unfold pending scan
    rw [hnone]
    rfl
  refine ⟨htable, hauthenticated, hbootstrap, ?_, ?_, ?_, nofun, ?_, ?_⟩
  · intro page _ hsome
    exact absurd hnone hsome
  · intro page hpage
    cases hpage
    exact Nat.zero_le _
  · intro c hc pts hpts
    dsimp only
    rw [hactor]
    exact hc pts hpts
  · intro c hc
    rw [hpending] at hc
    cases hc
  · intro _
    exact ⟨hactor, _, rfl, rfl, .inl rfl⟩

/-- The tick that starts over scans the same channels in the same order. -/
theorem Round.of_start {r : AntiEntropy × Except ChannelKey AntiEntropyPage}
    (hround : Round setting (s.saveAntiEntropyCursor startCursor) r)
    (hend : ahead s.table.identifiers s.loadAntiEntropyCursor = [])
    (hcycle : ∀ page, r.2 = .ok page → page.cycleCompleted = true) :
    Round setting s r := by
  have hscan : (s.saveAntiEntropyCursor startCursor).scan = s.scan := by
    have hall := passed_append_ahead s.table.identifiers_sorted s.loadAntiEntropyCursor
    rw [hend, List.append_nil] at hall
    have hstart : (s.saveAntiEntropyCursor startCursor).scan = s.table.identifiers :=
      (scanFrom_start s.table.start_lt).2
    rw [hstart, scan, scanFrom, hend, List.nil_append, hall]
  have hpending : (s.saveAntiEntropyCursor startCursor).pending setting.server =
      s.pending setting.server := by
    unfold pending
    rw [hscan]
    rfl
  have hgap : (s.saveAntiEntropyCursor startCursor).gap setting.server =
      s.gap setting.server := by
    unfold gap
    rw [hscan]
    rfl
  have hadvances := hround.advances
  have hfailed := hround.failed
  have hprogress := hround.progress
  have hconverges := hround.converges
  rw [hpending] at hfailed hprogress hconverges
  rw [hscan] at hadvances
  rw [hgap] at hprogress
  refine ⟨hround.table, hround.authenticated, hround.bootstrapCompleted, hadvances,
    hround.budget, hround.reached, hfailed, hprogress, fun hnone => ?_⟩
  obtain ⟨hactor, page, hpage, hdeferred, -⟩ := hconverges hnone
  exact ⟨hactor, page, hpage, hdeferred, .inl (hcycle page hpage)⟩

/-- Every tick is a round. -/
theorem runAntiEntropyOnce_round (hpos : 0 < setting.pageSize)
    (hbudget : 0 < setting.differenceBudget)
    (hcap : setting.pageSize ≤ 500 ∨ s.table.identifiers.length ≤ 500)
    (hauthenticated : s.authenticated = true)
    (hbootstrap : s.bootstrapCompleted = true) :
    Round setting s (s.runAntiEntropyOnce setting scripts) := by
  have hready : ¬ (s.authenticated = false ∨ s.bootstrapCompleted = false) := by
    simp [hauthenticated, hbootstrap]
  have hnil : ∀ after, s.table.listChannelIdentifiersAfter after setting.pageSize = [] →
      ahead s.table.identifiers after = [] := by
    intro after h
    rw [s.table.listChannelIdentifiersAfter_eq hpos] at h
    exact (List.take_eq_nil_iff.mp h).resolve_left (by omega)
  unfold runAntiEntropyOnce
  rw [if_neg hready]
  dsimp only
  split
  · rename_i hwrap
    split
    · rename_i hnone
      have hids := hnil startCursor hnone
      rw [(scanFrom_start s.table.start_lt).1] at hids
      exact round_idle hids rfl rfl rfl rfl
    · rename_i hsome
      have hpage : PageOf setting.pageSize (s.saveAntiEntropyCursor startCursor) _ :=
        @pageOf_list (s.saveAntiEntropyCursor startCursor) _ hpos hcap _ rfl hsome
      exact (scanPage_round hbudget hpage true).of_start (hnil _ hwrap.1)
        (fun page => scanPage_cycle)
  · rename_i hnowrap
    split
    · rename_i hnone
      -- only the start has no channel id, and everything comes after the start
      have hzero : s.loadAntiEntropyCursor.channelId = 0 := by
        by_contra h
        exact hnowrap ⟨hnone, h⟩
      have hids : s.table.identifiers = [] := by
        refine List.eq_nil_iff_forall_not_mem.mpr (fun c hc => ?_)
        have hahead := hnil _ hnone
        have hafter : s.loadAntiEntropyCursor < c := by
          refine ChannelKey.lt_iff.mpr (.inl ?_)
          obtain ⟨r, hr, rfl⟩ := List.mem_map.mp hc
          rw [hzero]
          exact s.table.pos r (List.mem_of_mem_filter hr)
        have hin : c ∈ ahead s.table.identifiers s.loadAntiEntropyCursor :=
          List.mem_filter.mpr ⟨hc, decide_eq_true hafter⟩
        rw [hahead] at hin
        cases hin
      exact round_idle hids rfl rfl rfl rfl
    · rename_i hsome
      exact scanPage_round hbudget (pageOf_list hpos hcap rfl hsome) false

end AntiEntropy

end Rounds

section Ticks

variable (setting : AntiEntropySetting) (s : AntiEntropy) (scripts : Nat → RepairScripts)

namespace AntiEntropy

/-- The state after so many ticks, whatever they returned. -/
def afterTicks : Nat → AntiEntropy
  | 0 => s
  | n + 1 => ((afterTicks n).runAntiEntropyOnce setting (scripts n)).1

/-- What a tick returns. -/
def tickResult (n : Nat) : Except ChannelKey AntiEntropyPage :=
  ((s.afterTicks setting scripts n).runAntiEntropyOnce setting (scripts n)).2

/-- The repairs of the channel fail again and again. -/
def FailsForever (c : ChannelKey) : Prop :=
  ∀ n, ∃ m, n ≤ m ∧ s.tickResult setting scripts m = .error c

/-- No channel that fails forever comes, in the scan, before another one that is behind. -/
def ForeverLast (n : Nat) : Prop :=
  ((s.afterTicks setting scripts n).pending setting.server).Pairwise
    (fun x c => s.FailsForever setting scripts x → s.FailsForever setting scripts c)

/--
What the ticks owe: nothing stale is passed over, the budget is kept, a page
without a failure moves the scan on, every channel that is behind and does not
fail forever is brought up to date, and in the end that is reported.
-/
structure KeepsUp : Prop where
  plans : ∀ (observations : List AntiEntropyObservation) (budget : Nat),
    (∀ o ∈ observations.take (planAntiEntropyPage observations budget).consumed,
      o.Stale → o.key ∈ (planAntiEntropyPage observations budget).repair) ∧
    (planAntiEntropyPage observations budget).repair.length ≤ budget
  advances : ∀ n page, s.tickResult setting scripts n = .ok page →
    s.table.identifiers ≠ [] →
      0 < page.pageScanned ∧ page.channelsRepaired ≤ setting.differenceBudget ∧
      (s.afterTicks setting scripts (n + 1)).scan =
        (s.afterTicks setting scripts n).scan.rotate page.pageScanned
  reaches : ∀ c ∈ s.table.identifiers, ¬ s.FailsForever setting scripts c →
    ∃ n, ¬ (s.afterTicks setting scripts n).Behind setting.server c
  converges : (∀ c ∈ s.table.identifiers, ¬ s.FailsForever setting scripts c) →
    ∃ n page,
      (∀ c ∈ s.table.identifiers,
        ¬ (s.afterTicks setting scripts n).Behind setting.server c) ∧
      s.tickResult setting scripts n = .ok page ∧ page.isConverged = true

end AntiEntropy

end Ticks

section Liveness

namespace AntiEntropy

/-- An account with channels to scan, and sizes for which every tick is a round. -/
structure Ready (setting : AntiEntropySetting) (s : AntiEntropy) : Prop where
  page : 0 < setting.pageSize
  budget : 0 < setting.differenceBudget
  cap : setting.pageSize ≤ 500 ∨ s.table.identifiers.length ≤ 500
  authenticated : s.authenticated = true
  bootstrapCompleted : s.bootstrapCompleted = true

variable {setting : AntiEntropySetting} {s : AntiEntropy} {scripts : Nat → RepairScripts}

theorem Ready.round (h : Ready setting s) (scripts : RepairScripts) :
    Round setting s (s.runAntiEntropyOnce setting scripts) :=
  runAntiEntropyOnce_round h.page h.budget h.cap h.authenticated h.bootstrapCompleted

/-- The ticks leave the channels and the session as they are. -/
theorem Ready.afterTicks (h : Ready setting s) (n : Nat) :
    Ready setting (s.afterTicks setting scripts n) ∧
      (s.afterTicks setting scripts n).table = s.table := by
  induction n with
  | zero => exact ⟨h, rfl⟩
  | succ n ih =>
      obtain ⟨hready, htable⟩ := ih
      have hround := hready.round (scripts n)
      refine ⟨⟨h.page, h.budget, ?_, ?_, ?_⟩, hround.table.trans htable⟩
      · rw [show (s.afterTicks setting scripts (n + 1)).table = s.table from
          hround.table.trans htable]
        exact h.cap
      · exact hround.authenticated.trans hready.authenticated
      · exact hround.bootstrapCompleted.trans hready.bootstrapCompleted

theorem Ready.tick (h : Ready setting s) (scripts : Nat → RepairScripts) (n : Nat) :
    Round setting (s.afterTicks setting scripts n)
      (s.afterTicks setting scripts (n + 1), s.tickResult setting scripts n) :=
  (h.afterTicks n).1.round (scripts n)

/-- From some tick on, only the repairs that fail forever still fail. -/
theorem exists_quiet (cs : List ChannelKey) :
    ∃ start, ∀ c ∈ cs, ¬ s.FailsForever setting scripts c →
      ∀ n, start ≤ n → s.tickResult setting scripts n ≠ .error c := by
  induction cs with
  | nil => exact ⟨0, fun c hc => absurd hc List.not_mem_nil⟩
  | cons c cs ih =>
      obtain ⟨start, hstart⟩ := ih
      by_cases hforever : s.FailsForever setting scripts c
      · refine ⟨start, fun c' hc' hfinite => ?_⟩
        rcases List.mem_cons.mp hc' with rfl | hc'
        · exact absurd hforever hfinite
        · exact hstart c' hc' hfinite
      · unfold FailsForever at hforever
        push Not at hforever
        obtain ⟨quiet, hquiet⟩ := hforever
        refine ⟨max start quiet, fun c' hc' hfinite n hn => ?_⟩
        rcases List.mem_cons.mp hc' with rfl | hc'
        · exact hquiet n ((le_max_right _ _).trans hn)
        · exact hstart c' hc' hfinite n ((le_max_left _ _).trans hn)

/-- The channels whose saved position is before the server's. -/
def unreached (server : PtsServer) (s : AntiEntropy) : Nat :=
  s.table.identifiers.countP (fun c => ¬ s.Reached server c)

/-- What is left to reach after so many ticks, and how far the next of it is. -/
def remaining (setting : AntiEntropySetting) (s : AntiEntropy)
    (scripts : Nat → RepairScripts) (n : Nat) : Nat :=
  unreached setting.server (s.afterTicks setting scripts n) *
      (s.table.identifiers.length + 1) +
    (s.afterTicks setting scripts n).gap setting.server

/-- The channels that do not fail forever are reached, if they come first. -/
theorem exists_served (h : Ready setting s)
    (hlast : ∀ n, s.ForeverLast setting scripts n) :
    ∃ n, ∀ c ∈ (s.afterTicks setting scripts n).pending setting.server,
      s.FailsForever setting scripts c := by
  obtain ⟨start, hquiet⟩ := @exists_quiet setting s scripts s.table.identifiers
  -- what is reached stays so, and between two such ticks the scan comes nearer
  have hrank : ∀ n, start ≤ n → True →
      ¬ (∀ c ∈ (s.afterTicks setting scripts n).pending setting.server,
        s.FailsForever setting scripts c) →
      True ∧ remaining setting s scripts (n + 1) < remaining setting s scripts n := by
    intro n hn _ hgoal
    refine ⟨trivial, ?_⟩
    have htable : (s.afterTicks setting scripts n).table = s.table := (h.afterTicks n).2
    have hround := h.tick scripts n
    have htable' : (s.afterTicks setting scripts (n + 1)).table = s.table :=
      hround.table.trans htable
    have hless := (s.afterTicks setting scripts (n + 1)).gap_le setting.server
    rw [htable'] at hless
    -- the first channel that is behind does not fail forever
    obtain ⟨c, rest, hpending⟩ : ∃ c rest,
        (s.afterTicks setting scripts n).pending setting.server = c :: rest := by
      refine List.exists_cons_of_ne_nil (fun hnone => hgoal (fun c hc => ?_))
      rw [hnone] at hc
      cases hc
    have hc : c ∈ (s.afterTicks setting scripts n).pending setting.server := by
      rw [hpending]
      exact List.mem_cons_self
    obtain ⟨hin, hbehind⟩ := mem_pending.mp hc
    rw [htable] at hin
    have hfinite : ¬ s.FailsForever setting scripts c := by
      intro hforever
      have horder := hlast n
      unfold ForeverLast at horder
      rw [hpending] at horder hgoal
      refine hgoal (fun c' hc' => ?_)
      rcases List.mem_cons.mp hc' with rfl | hc'
      · exact hforever
      · exact (List.pairwise_cons.mp horder).1 c' hc' hforever
    have hkept : ∀ c' ∈ s.table.identifiers,
        decide (¬ (s.afterTicks setting scripts (n + 1)).Reached setting.server c') = true →
        decide (¬ (s.afterTicks setting scripts n).Reached setting.server c') = true := by
      intro c' _ hnot
      rw [decide_eq_true_eq] at hnot ⊢
      exact fun hreached => hnot (hround.reached c' hreached)
    have hprogress : _ ∨ (s.afterTicks setting scripts (n + 1)).Reached setting.server c ∨
        _ ∧ (s.afterTicks setting scripts (n + 1)).gap setting.server <
          (s.afterTicks setting scripts n).gap setting.server :=
      hround.progress c (by rw [hpending]; rfl)
    unfold remaining unreached
    rw [htable, htable']
    rcases hprogress with hfailed | hreached | ⟨-, hnearer⟩
    · exact absurd hfailed (hquiet c hin hfinite n hn)
    · have hfewer := countP_lt_of_imp hkept hin
        (by simpa using fun hold => Reached.not_behind hold hbehind)
        (by simpa using hreached)
      have hmul := Nat.mul_le_mul_right (s.table.identifiers.length + 1) hfewer
      rw [Nat.succ_mul] at hmul
      omega
    · have hsame := Nat.mul_le_mul_right (s.table.identifiers.length + 1)
        (List.countP_mono_left hkept)
      omega
  obtain ⟨n, -, -, hgoal⟩ := exists_of_rank (fun _ => True) _
    (remaining setting s scripts) hrank trivial
  exact ⟨n, hgoal⟩

/-- With nothing behind, a tick that reports it comes. -/
theorem exists_converged (h : Ready setting s) {n : Nat}
    (hnone : (s.afterTicks setting scripts n).pending setting.server = []) :
    ∃ m page, (s.afterTicks setting scripts m).pending setting.server = [] ∧
      s.tickResult setting scripts m = .ok page ∧ page.isConverged = true := by
  have hrank : ∀ m, n ≤ m →
      (s.afterTicks setting scripts m).pending setting.server = [] →
      ¬ (∃ page, s.tickResult setting scripts m = .ok page ∧ page.isConverged = true) →
      (s.afterTicks setting scripts (m + 1)).pending setting.server = [] ∧
        (ahead (s.afterTicks setting scripts (m + 1)).table.identifiers
          (s.afterTicks setting scripts (m + 1)).loadAntiEntropyCursor).length <
        (ahead (s.afterTicks setting scripts m).table.identifiers
          (s.afterTicks setting scripts m).loadAntiEntropyCursor).length := by
    intro m _ hempty hgoal
    have hround := h.tick scripts m
    obtain ⟨hactor, page, hpage, hdeferred, hcycle | hnearer⟩ := hround.converges hempty
    · refine absurd ⟨page, hpage, ?_⟩ hgoal
      simp [AntiEntropyPage.isConverged, hcycle, hdeferred]
    · refine ⟨List.eq_nil_iff_forall_not_mem.mpr (fun c hc => ?_), hnearer⟩
      obtain ⟨hin, hbehind⟩ := mem_pending.mp hc
      have hold : c ∈ (s.afterTicks setting scripts m).pending setting.server :=
        mem_pending.mpr ⟨hround.table ▸ hin, (behind_congr hactor).mp hbehind⟩
      rw [hempty] at hold
      cases hold
  obtain ⟨m, -, hempty, page, hpage, hconverged⟩ := exists_of_rank
    (fun m => (s.afterTicks setting scripts m).pending setting.server = []) _
    (fun m => (ahead (s.afterTicks setting scripts m).table.identifiers
      (s.afterTicks setting scripts m).loadAntiEntropyCursor).length) hrank hnone
  exact ⟨m, page, hempty, hpage, hconverged⟩

end AntiEntropy

open AntiEntropy

/-- Two channels that the server is ahead of. -/
def twoChannels : ChannelTable where
  rows := [⟨⟨1, 1⟩, false⟩, ⟨⟨2, 1⟩, false⟩]
  sorted := by decide
  pos := by decide

/-- Every channel of type 1 has one text on the server, at the fifth place. -/
def aheadByFive : PtsServer where
  commits t :=
    if t.channelType = 1 then
      [{ eventId := none
         pts := 5
         serverMsgId := 100 + t.channelId
         localMessageId := none
         channelId := t.channelId
         channelType := t.channelType
         messageType := "text"
         content := .null
         serverTimestamp := 0
         senderId := 2
         canonicalEvent := some (.newMessage .text (.obj [("content", .str "hi")])) }]
    else
      []
  increasing t := by
    split
    · exact List.pairwise_singleton _ _
    · exact List.Pairwise.nil
  known _ := true

def twoChannelSetting : AntiEntropySetting where
  codec := sampleCodec
  currentUid := some 1
  server := aheadByFive
  pageSize := 25
  differenceBudget := 1

def freshAccount : AntiEntropy where
  table := twoChannels
  cursor := none
  actor := .start 512
  authenticated := true
  bootstrapCompleted := true

/-- `get_difference` fails for one of the channels in every tick, and works for the other. -/
def oneFails (failing : Nat) (_ : Nat) : RepairScripts := fun key =>
  { start := .calm 0
    events :=
      if key.channelId = failing then
        [(.calm 0, .answer .failed)]
      else
        (.calm 0, .answer (.commits 0)) :: List.replicate 7 (.calm 0, .proceed) }

theorem ready_freshAccount : Ready twoChannelSetting freshAccount :=
  ⟨by decide, by decide, .inl (by decide), rfl, rfl⟩

end Liveness

end PrivchatSdk
