import PrivchatSdk.MutationItems

/-!
# What a channel has to show after its events have come

The events of a channel come in on difference pages, in pages of the history and in
pushes, in any order and any number of times.  `Reception` is the actor with the events
that have come to it, and `Delivery` what it is given, one step after the other.

`Brings` says that a delivery is of the events of the channel, and `Converges` when a
step does no harm: no message is stored without its pending mutations being replayed, no
reaction is applied after a later one, and no revoked message is written again.

A message is settled if it is stored and shows all its mutations that have come, with
none of them pending, or if it is not stored and all of them are pending.  While the
pending mutations of a message are replayed it is neither: it shows those that were
replayed, and the later ones are still to come.  `Sound` says this of the actor wherever
it stands, with what the pipeline remembers.
-/

namespace PrivchatSdk
namespace Difference

open StatementExec RelTable Receive StampedWrites

section Server

/--
The commits of a channel that post messages, revoke them and react to them.  A message
is posted once, and every other commit has an event id and a message that it is about.
-/
structure EventLog (codec : Codec) (t : Timeline) extends ServerLog t where
  channelId_lt : ∀ c ∈ commits, t.channelId < 2 ^ 64
  messages : ∀ c ∈ commits, ∀ c' ∈ commits, mutationTarget c = none →
    mutationTarget c' = none → c.serverMsgId = c'.serverMsgId → c = c'
  legacy : ∀ c ∈ commits, c.canonicalEvent = none → IsMessage codec c
  eventIds : ∀ c ∈ commits, mutationTarget c ≠ none → c.eventId ≠ none
  fits : ∀ c ∈ commits, ∀ event, c.canonicalEvent = some event → EventFits event

variable {codec : Codec} {t : Timeline}

/-- The events of a log, in the order of their `pts`. -/
def EventLog.logged (log : EventLog codec t) : List LogEvent :=
  log.commits.map (commitEvent codec)

/-- The events that post a message. -/
def EventLog.posts (log : EventLog codec t) (serverMessageId : Nat) : List LogEvent :=
  log.logged.filter (fun e => e.change.posted == some serverMessageId)

variable (log : EventLog codec t)

/-- The item of a history page is of a message of the channel, as the server has it. -/
structure HistoryTells (item : MessageHistoryItem) : Prop where
  channel : item.channelId = t.channelId
  tells : Tells log.logged (codec.historyItemToUpsertInput item t.channelType)
  revoked : item.revoked = true → ∃ e ∈ log.logged, e.change = .revoke item.messageId

/-- A plain push is of a message of the channel. -/
structure PushTells (push : PushMessageRequest) : Prop where
  channel : push.channelId = t.channelId ∧ push.channelType = t.channelType
  live : push.deleted = false
  posted : ∃ e ∈ log.logged, e.change = .post push.serverMessageId
    (pushMessageType push.messageType,
      (codec.payloadBytesToMessageContentAndExtra push.payload).1)

end Server

section Machine

/-- What the actor is given, all of it about one channel. -/
inductive Delivery where
  | resume
  | reply (r : DifferenceReply)
  | timelinePush (push : PushMessageRequest) (event : CanonicalTimelineEvent)
  | messagePushes (pushes : List PushMessageRequest)
  | history (items : List MessageHistoryItem)
  | proceed

def Delivery.syncEvent (t : Timeline) : Delivery → SyncEvent
  | .resume => .command (.resume t)
  | .reply r => .reply r
  | .timelinePush push event => .command (.timelinePush push event)
  | .messagePushes pushes => .command (.messagePushes pushes)
  | .history items => .command (.history items t.channelType)
  | .proceed => .proceed

/--
The actor, the events that have come to it, and the messages of which a page of the
history said that they are revoked.
-/
structure Reception where
  actor : SyncActor
  arrived : List LogEvent
  told : List Nat

def Reception.start (recentKeyLimit : Nat) : Reception where
  actor := .start recentKeyLimit
  arrived := []
  told := []

namespace Reception

/-- The history page that a step stores. -/
def historyPage (w : Reception) (d : Delivery) : List MessageHistoryItem :=
  match w.actor.task, d with
  | .idle, .history items => items
  | .fetch _ _ pages, .reply (.resyncRequired (some _) (some items)) =>
      if 64 < pages + 1 then [] else items
  | _, _ => []

variable {codec : Codec} {t : Timeline} (log : EventLog codec t)
variable (currentUid : Option Nat)

/-- The events that come with a step. -/
def arrivals (w : Reception) (d : Delivery) : List LogEvent :=
  match w.actor.task, d with
  | .idle, .timelinePush push event =>
      [commitEvent codec (canonicalPushCommit push event)]
  | .idle, .messagePushes pushes =>
      pushes.flatMap (fun push => log.posts push.serverMessageId)
  | .page { rest := c :: _, .. }, .proceed => [commitEvent codec c]
  | _, _ => (w.historyPage d).flatMap (fun item => log.posts item.messageId)

/-- One step, in which no statement fails. -/
def step (w : Reception) (x : Int × Delivery) : Reception where
  actor := w.actor.step codec currentUid (Function.update (fun _ => []) t log.commits)
    (.calm x.1, x.2.syncEvent t)
  arrived := w.arrivals log x.2 ++ w.arrived
  told := ((w.historyPage x.2).filter (fun item => item.revoked)).map
    (fun item => item.messageId) ++ w.told

/-- What comes is of the events of the channel. -/
def Brings (w : Reception) (x : Int × Delivery) : Prop :=
  match w.actor.task, x.2 with
  | .idle, .timelinePush push event =>
      (push.channelId = t.channelId ∧ push.channelType = t.channelType) ∧
        ∃ c ∈ log.commits, PushOf codec push event c
  | .idle, .messagePushes pushes => ∀ push ∈ pushes, PushTells log push
  | _, _ => ∀ item ∈ w.historyPage x.2, HistoryTells log item

/--
An upsert into the store is in order: it does not take the row of another message for
its own, stores a message with pending mutations only if they are replayed after it, and
does not write the content of a revoked message.
-/
structure UpsertConverges (w : Reception) (replayed : Bool) (s : Store)
    (input : UpsertRemoteMessageInput) : Prop where
  own : OwnRow currentUid s input
  pending : replayed = false → s.byServerId input.serverMessageId = none →
    ∀ m ∈ w.actor.pendingMutations, m.targetServerMessageId ≠ input.serverMessageId
  revoked : ∀ row, s.byServerId input.serverMessageId = some row →
    (∃ e ∈ w.arrived, e.change = .revoke input.serverMessageId) →
    input.stale row = true ∨ (input.messageType, input.content) = placeholder

/-- The message item of a batch is upserted in order. -/
def ItemConverges (codec : Codec) (w : Reception) (replayed : Bool) (now : Int)
    (scope : Option String) (item : SyncEntityItem ItemPayload) : Prop :=
  ∀ input, codec.messageItemAction scope now (readItem ItemPayload.asMessage item) =
    .upsert input → w.UpsertConverges currentUid replayed w.actor.store input

/-- A reaction says what the latest of those that have come says. -/
def ReactionConverges (codec : Codec) (w : Reception) (c : ServerCommit) : Prop :=
  ∀ target actorId emoji remove,
    commitChange codec c = .react target actorId emoji remove →
    Latest (reactions target w.arrived) false (actorId, emoji) (!remove)

/-- The condition of a step, on the state before it and what the step is given. -/
def Converges (codec : Codec) (t : Timeline) (w : Reception) (x : Int × Delivery) :
    Prop :=
  match w.actor.task, x.2 with
  | .apply ((batch, item :: _) :: _) after, .proceed =>
      match after with
      | .commit c _ =>
          (batch.entityType = "message" →
            ItemConverges currentUid codec w true x.1 batch.scope item) ∧
          (batch.entityType ≠ "message" → ReactionConverges codec w c)
      | .mutation _ _ _ => True
      | .pushes => ItemConverges currentUid codec w false x.1 batch.scope item
  | _, _ =>
      EventRun.Guarded (Store.afterUpsert currentUid (.calm x.1))
        (w.UpsertConverges currentUid false) w.actor.store
        ((w.historyPage x.2).map
          (fun item => codec.historyItemToUpsertInput item t.channelType))

end Reception

end Machine

section Invariant

variable {codec : Codec} {t : Timeline} (log : EventLog codec t)

/-- What the invariant is about. -/
structure Standing where
  store : Store
  pending : List PendingTimelineMutation
  arrived : List LogEvent
  told : List Nat

def Reception.standing (w : Reception) : Standing where
  store := w.actor.store
  pending := w.actor.pendingMutations
  arrived := w.arrived
  told := w.told

/-- The mutation is that of a commit. -/
structure HeldFor (t : Timeline) (m : PendingTimelineMutation) (c : ServerCommit) :
    Prop where
  channel : m.channelId = t.channelId ∧ m.channelType = t.channelType
  pts : m.pts = c.pts
  event : m.canonicalEvent = c.canonicalEvent
  target : mutationTarget c = some m.targetServerMessageId
  eventId : c.eventId = some m.eventId

/-- The message is stored and shows all that has come, or all that has come waits. -/
structure Settled (x : Standing) (S : Nat) : Prop where
  missing : x.store.view S = none → ∀ e ∈ x.arrived, e.change.target = some S →
    ∃ m ∈ x.pending, m.targetServerMessageId = S ∧ m.pts = e.pts
  shown : ∀ v, x.store.view S = some v → Shows log.logged x.told x.arrived S v
  replayed : ∀ v, x.store.view S = some v →
    ∀ m ∈ x.pending, m.targetServerMessageId ≠ S

/-- The message shows what has been done; `rest` is still to be replayed. -/
structure ReplayedUpTo (x : Standing) (S : Nat) (rest : List PendingTimelineMutation)
    (done : List LogEvent) (v : MessageView) : Prop where
  view : x.store.view S = some v
  shows : Shows log.logged x.told done S v
  split : ∀ e ∈ x.arrived, e.change.target = some S →
    e ∈ done ∨ ∃ m ∈ rest, m.pts = e.pts
  arrived : ∀ e ∈ done, e.change.target = some S → e ∈ x.arrived
  earlier : ∀ e ∈ done, e.change.target = some S → ∀ m ∈ rest, e.pts ≤ m.pts

/-- The message is stored; `rest` is still to be replayed, and `held` is pending. -/
structure Replaying (x : Standing) (S : Nat)
    (rest held : List PendingTimelineMutation) : Prop where
  shown : ∃ done v, ReplayedUpTo log x S rest done v
  pending : ∀ m, m ∈ held ↔ m ∈ x.pending ∧ m.targetServerMessageId = S
  sorted : rest.Pairwise replayedBefore
  nodup : held.Nodup

/-- One message is replayed, and all others are settled. -/
def OneReplaying (x : Standing) (S : Nat) (rest held : List PendingTimelineMutation) :
    Prop :=
  Replaying log x S rest held ∧ ∀ T, T ≠ S → Settled log x T

/-- An entry of a type and a scope that a delivery has. -/
structure Plain (t : Timeline) (y : Entry ItemPayload) : Prop where
  type : '|' ∉ y.entityType.toList
  scope : y.scope = none ∨ y.scope = some t.scope

/-- The pipeline remembers no mutation with the `pts` of one of these. -/
def Fresh (t : Timeline) (p : ReceivePipeline ItemPayload)
    (ms : List PendingTimelineMutation) : Prop :=
  ∀ y : Entry ItemPayload, Plain t y → y.key ∈ p.recentKeys →
    y.entityType ≠ "message" → ∀ m ∈ ms, y.item.version ≠ m.pts

/-- A remembered key is that of a message that is stored or of a mutation that came. -/
structure Remembered (x : Standing) (p : ReceivePipeline ItemPayload)
    (entries : List (Entry ItemPayload)) : Prop where
  message : ∀ y : Entry ItemPayload, Plain t y → y.key ∈ p.recentKeys →
    y.entityType = "message" → ∀ S, y.item.entityId = toString S →
      x.store.view S ≠ none ∨ ∃ y' ∈ entries, Plain t y' ∧ y'.key = y.key
  mutation : ∀ y : Entry ItemPayload, Plain t y → y.key ∈ p.recentKeys →
    y.entityType ≠ "message" → ∃ e ∈ x.arrived, e.pts = y.item.version ∧
      ∃ S, e.change.target = some S ∧ x.store.view S ≠ none

/-- The entry becomes the upsert of a message of the log. -/
structure Carries (y : Entry ItemPayload) (S : Nat) : Prop where
  plain : Plain t y
  type : y.entityType = "message"
  id : y.item.entityId = toString S
  upsert : ∀ now, ∃ input,
    codec.messageItemAction y.scope now (readItem ItemPayload.asMessage y.item) =
        .upsert input ∧
      input.serverMessageId = S ∧ 0 < S ∧
      (input.channelId = t.channelId ∧ input.channelType = t.channelType) ∧
      input.revoked = false ∧ Tells log.logged input

/-- The commit says what one of the log says. -/
structure FromLog (c : ServerCommit) : Prop where
  logged : ∃ c' ∈ log.commits, commitEvent codec c = commitEvent codec c' ∧
    c.canonicalEvent = c'.canonicalEvent ∧
    (mutationTarget c ≠ none → c.eventId = c'.eventId)
  legacy : c.canonicalEvent = none → IsMessage codec c
  channel : c.channelId = t.channelId ∧ c.channelType = t.channelType

def CallerSound : Caller → Prop
  | .page page => page.timeline = t ∧ ∀ c ∈ page.rest, c ∈ log.commits
  | .push => True

/-- What holds while the entry of a commit is to be applied, and what afterwards. -/
def CommitSound (x : Standing) (entries : List (Entry ItemPayload)) (c : ServerCommit) :
    Prop :=
  match mutationTarget c with
  | none =>
      entries = [commitEntry codec t c] ∧ (∀ S, Settled log x S) ∨
      entries = [] ∧
        let pending := listPendingTimelineMutations x.pending t c.serverMsgId
        OneReplaying log x c.serverMsgId pending pending
  | some S =>
      entries = [commitEntry codec t c] ∧ x.store.view S ≠ none ∧
        (∃ old, x.arrived = commitEvent codec c :: old ∧
          ∀ T, Settled log { x with arrived := old } T) ∨
      entries = [] ∧ ∀ T, Settled log x T

/-- The same for a mutation that is replayed. -/
def MutationSound (x : Standing) (entries : List (Entry ItemPayload))
    (m : PendingTimelineMutation) (rest : List PendingTimelineMutation) : Prop :=
  let S := m.targetServerMessageId
  (∃ event, m.canonicalEvent = some event ∧
    entries = [commitEntry codec t (replayCommit m event)]) ∧
      OneReplaying log x S (m :: rest) (m :: rest) ∨
  entries = [] ∧ OneReplaying log x S rest (m :: rest)

def AfterSound (x : Standing) (p : ReceivePipeline ItemPayload)
    (entries : List (Entry ItemPayload)) : AfterApply → Prop
  | .commit c caller =>
      CallerSound log caller ∧ FromLog log c ∧ CommitSound log x entries c ∧
        (mutationTarget c = none →
          Fresh t p (listPendingTimelineMutations x.pending t c.serverMsgId))
  | .mutation m rest caller =>
      CallerSound log caller ∧ Fresh t p rest ∧ MutationSound log x entries m rest
  | .pushes => (∀ y ∈ entries, ∃ S, Carries log y S) ∧ ∀ S, Settled log x S

def TaskSound (x : Standing) (p : ReceivePipeline ItemPayload) : Task → Prop
  | .idle => ∀ S, Settled log x S
  | .fetch timeline _ _ => timeline = t ∧ ∀ S, Settled log x S
  | .page page => CallerSound log (.page page) ∧ ∀ S, Settled log x S
  | .apply batches after => AfterSound log x p (openEntries batches) after
  | .replay ms caller =>
      CallerSound log caller ∧ Fresh t p ms ∧ ∃ S, OneReplaying log x S ms ms
  | .reconcile _ => ∀ S, Settled log x S

/-- What holds of the store, the pending mutations and the pipeline. -/
structure Core (x : Standing) (p : ReceivePipeline ItemPayload)
    (entries : List (Entry ItemPayload)) : Prop where
  store : x.store.OfChannel t.channelId t.channelType
  arrived : ∀ e ∈ x.arrived, e ∈ log.logged
  told : ∀ S ∈ x.told, ∃ e ∈ log.logged, e.change = .revoke S
  pending : ∀ m ∈ x.pending, ∃ c ∈ log.commits, HeldFor t m c ∧
    commitEvent codec c ∈ x.arrived
  nodup : x.pending.Nodup
  queue : p.queue = []
  remembered : Remembered (t := t) x p entries
  posted : ∀ e ∈ x.arrived, ∀ S, e.change.posted = some S →
    x.store.view S ≠ none ∨
      ∃ y ∈ entries, y.entityType = "message" ∧ y.item.entityId = toString S

/-- What every step keeps. -/
structure Sound (w : Reception) : Prop where
  core : Core log w.standing w.actor.receivePipeline w.actor.task.entries
  task : TaskSound log w.standing w.actor.receivePipeline w.actor.task

end Invariant

section Entries

variable {codec : Codec} {t : Timeline} {log : EventLog codec t}

/-- Entries of one channel with one key differ in their payloads only. -/
theorem Plain.same_of_key {y y' : Entry ItemPayload} (h : Plain t y) (h' : Plain t y')
    (hkey : y.key = y'.key) :
    y.entityType = y'.entityType ∧ y.scope = y'.scope ∧
      y.item.entityId = y'.item.entityId ∧ y.item.version = y'.item.version := by
  have hbar : ∀ {z : Entry ItemPayload}, Plain t z →
      '|' ∉ (z.scope.getD "").toList ∧ z.scope ≠ some "" := by
    intro z hz
    rcases hz.scope with hnone | hsome
    · simp [hnone]
    · rw [hsome]
      exact ⟨t.bar_not_mem_scope, fun hempty => t.scope_ne_empty (Option.some.inj hempty)⟩
  obtain ⟨htext, hversion, -⟩ := (Entry.key_eq_iff y y').mp hkey
  obtain ⟨htype, hscope, hid⟩ := Entry.text_inj htext h.type h'.type (hbar h).1
    (hbar h').1 (hbar h).2 (hbar h').2
  exact ⟨htype, hscope, hid, hversion⟩

theorem toString_nat_inj {n m : Nat} (h : toString n = toString m) : n = m :=
  version_inj (congrArg String.toList h)

theorem mem_logged {e : LogEvent} :
    e ∈ log.logged ↔ ∃ c ∈ log.commits, commitEvent codec c = e :=
  List.mem_map

/-- Two events of the log with one `pts` are one event. -/
theorem eq_of_pts {e e' : LogEvent} (he : e ∈ log.logged) (he' : e' ∈ log.logged)
    (hpts : e.pts = e'.pts) : e = e' := by
  obtain ⟨c, hc, rfl⟩ := mem_logged.mp he
  obtain ⟨c', hc', rfl⟩ := mem_logged.mp he'
  rw [log.toServerLog.eq_of_pts hc hc' hpts]

/-- A commit that posts a message is about no other. -/
theorem posted_commitChange {c : ServerCommit} {S : Nat}
    (h : (commitChange codec c).posted = some S) :
    mutationTarget c = none ∧ c.serverMsgId = S := by
  unfold commitChange at h
  unfold mutationTarget
  cases hevent : c.canonicalEvent with
  | none =>
      rw [hevent] at h
      exact ⟨rfl, Option.some.inj h⟩
  | some event =>
      rw [hevent] at h
      cases event with
      | newMessage messageType legacy => exact ⟨rfl, Option.some.inj h⟩
      | revoke target revokedBy revokedAt => cases h
      | reactionChange target actorId emoji remove => cases h

/-- Two posts of one message are one event. -/
theorem eq_of_posted {e e' : LogEvent} {S : Nat} (he : e ∈ log.logged)
    (he' : e' ∈ log.logged) (hS : e.change.posted = some S)
    (hS' : e'.change.posted = some S) : e = e' := by
  obtain ⟨c, hc, rfl⟩ := mem_logged.mp he
  obtain ⟨c', hc', rfl⟩ := mem_logged.mp he'
  obtain ⟨htarget, hid⟩ := posted_commitChange hS
  obtain ⟨htarget', hid'⟩ := posted_commitChange hS'
  rw [log.messages c hc c' hc' htarget htarget' (hid.trans hid'.symm)]

theorem mem_posts {e : LogEvent} {S : Nat} :
    e ∈ log.posts S ↔ e ∈ log.logged ∧ e.change.posted = some S := by
  unfold EventLog.posts
  rw [List.mem_filter, beq_iff_eq]

theorem target_of_posted {change : Change} {S : Nat} (h : change.posted = some S) :
    change.target = none := by
  cases change with
  | post serverMessageId shown => rfl
  | revoke target => cases h
  | react target actorId emoji remove => cases h

/-- The commit of a pending mutation is known by its `pts`. -/
theorem HeldFor.eq_of_pts {m m' : PendingTimelineMutation} {c c' : ServerCommit}
    (h : HeldFor t m c) (h' : HeldFor t m' c') (hc : c ∈ log.commits)
    (hc' : c' ∈ log.commits) (hpts : m.pts = m'.pts) : m = m' := by
  have hsame : c = c' :=
    log.toServerLog.eq_of_pts hc hc' (by rw [← h.pts, ← h'.pts, hpts])
  subst hsame
  obtain ⟨channelId, channelType, target, eventId, pts, event⟩ := m
  obtain ⟨channelId', channelType', target', eventId', pts', event'⟩ := m'
  obtain ⟨⟨rfl, rfl⟩, rfl, rfl, htarget, heventId⟩ := h
  obtain ⟨⟨hid, htype⟩, hpts', hevent, htarget', heventId'⟩ := h'
  dsimp only at hid htype hpts' hevent htarget htarget' heventId heventId'
  subst hid htype hpts' hevent
  rw [htarget] at htarget'
  rw [heventId] at heventId'
  cases htarget'
  cases heventId'
  rfl

/-- The key of a pending mutation is that of its event. -/
theorem HeldFor.eq_of_key {m m' : PendingTimelineMutation} {c c' : ServerCommit}
    (h : HeldFor t m c) (h' : HeldFor t m' c') (hc : c ∈ log.commits)
    (hc' : c' ∈ log.commits) (hkey : m.key = m'.key) : m = m' := by
  simp only [PendingTimelineMutation.key, Prod.mk.injEq] at hkey
  obtain ⟨-, -, htarget, heventId⟩ := hkey
  have hpts := log.toServerLog.events c hc c' hc' m.eventId m.targetServerMessageId
    h.eventId (by rw [h'.eventId, heventId]) h.target (by rw [h'.target, htarget])
  exact h.eq_of_pts h' hc hc' (by rw [h.pts, h'.pts, hpts])

theorem known_of_commit {c : ServerCommit} (hc : c ∈ log.commits) : t.Known where
  channelId_pos := (log.known c hc).1
  channelId_lt := log.channelId_lt c hc
  channelType_pos := (log.known c hc).2.1
  channelType_lt := (log.known c hc).2.2

variable {c : ServerCommit}

theorem fromLog_of_mem (hc : c ∈ log.commits) : FromLog log c where
  logged := ⟨c, hc, rfl, rfl, fun _ => rfl⟩
  legacy := log.legacy c hc
  channel := log.channel c hc

/-- The commit of a timeline push. -/
theorem fromLog_push {push : PushMessageRequest} {event : CanonicalTimelineEvent}
    (hc : c ∈ log.commits) (hpush : PushOf codec push event c)
    (hchannel : push.channelId = t.channelId ∧ push.channelType = t.channelType) :
    FromLog log (canonicalPushCommit push event) where
  logged := by
    have hsame : (canonicalPushCommit push event).canonicalEvent = c.canonicalEvent :=
      hpush.event.symm
    have hchange : commitChange codec (canonicalPushCommit push event) =
        commitChange codec c := by
      unfold commitChange
      rw [hpush.event]
      cases event with
      | newMessage messageType legacy =>
          have hmessage : IsMessage codec c := by
            unfold IsMessage Codec.syncItemFromDifferenceCommit
            rw [hpush.event]
            rfl
          change Change.post push.serverMessageId _ = Change.post c.serverMsgId _
          rw [hpush.message hmessage]
      | revoke target revokedBy revokedAt => rfl
      | reactionChange target actorId emoji remove => rfl
    refine ⟨c, hc, ?_, hsame, fun htarget => ?_⟩
    · unfold commitEvent
      rw [hchange, hpush.pts]
      rfl
    · have htargets : mutationTarget c = mutationTarget (canonicalPushCommit push event) := by
        unfold mutationTarget
        rw [hsame]
      obtain ⟨target, hsome⟩ := Option.ne_none_iff_exists'.mp htarget
      exact (hpush.eventId (not_isMessage_of_target (htargets.trans hsome))).symm
  legacy hnone := by cases hnone
  channel := hchannel

/-- The commit of a replay. -/
theorem fromLog_replay {m : PendingTimelineMutation} {event : CanonicalTimelineEvent}
    (hm : HeldFor t m c) (hc : c ∈ log.commits) (hevent : m.canonicalEvent = some event) :
    FromLog log (replayCommit m event) ∧
      commitEvent codec (replayCommit m event) = commitEvent codec c ∧
      mutationTarget (replayCommit m event) = some m.targetServerMessageId := by
  have hsame : (replayCommit m event).canonicalEvent = c.canonicalEvent := by
    rw [← hm.event, hevent]
    rfl
  have htarget : mutationTarget (replayCommit m event) = mutationTarget c := by
    unfold mutationTarget
    rw [hsame]
  have hchange : commitEvent codec (replayCommit m event) = commitEvent codec c := by
    have hmutation := hm.target
    unfold commitEvent commitChange
    unfold mutationTarget at hmutation
    rw [hsame]
    cases hc' : c.canonicalEvent with
    | none =>
        rw [hc'] at hmutation
        cases hmutation
    | some event =>
        rw [hc'] at hmutation
        cases event with
        | newMessage messageType legacy => cases hmutation
        | revoke target revokedBy revokedAt =>
            change LogEvent.mk m.pts _ = _
            rw [hm.pts]
        | reactionChange target actorId emoji remove =>
            change LogEvent.mk m.pts _ = _
            rw [hm.pts]
  refine ⟨⟨⟨c, hc, hchange, hsame, fun _ => hm.eventId.symm⟩, ?_, hm.channel.1, ?_⟩,
    hchange, htarget.trans hm.target⟩
  · intro hnone
    cases hnone
  · change (if m.channelType < 256 then m.channelType else 1) = t.channelType
    rw [hm.channel.2, if_pos (log.known c hc).2.2]

theorem FromLog.mem_logged (h : FromLog log c) : commitEvent codec c ∈ log.logged := by
  obtain ⟨c', hc', hsame, -⟩ := h.logged
  rw [hsame]
  exact PrivchatSdk.Difference.mem_logged.mpr ⟨c', hc', rfl⟩

theorem FromLog.known (h : FromLog log c) : t.Known := by
  obtain ⟨c', hc', -⟩ := h.logged
  exact known_of_commit hc'

/-- A commit without a target posts a message. -/
theorem FromLog.isMessage (h : FromLog log c) (htarget : mutationTarget c = none) :
    IsMessage codec c := by
  unfold mutationTarget at htarget
  cases hcanonical : c.canonicalEvent with
  | none =>
      exact h.legacy hcanonical
  | some event =>
      rw [hcanonical] at htarget
      cases event with
      | newMessage messageType legacy =>
          unfold IsMessage Codec.syncItemFromDifferenceCommit
          rw [hcanonical]
          rfl
      | revoke target revokedBy revokedAt => cases htarget
      | reactionChange target actorId emoji remove => cases htarget

end Entries

end Difference
end PrivchatSdk
