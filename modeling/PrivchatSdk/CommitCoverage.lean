import PrivchatSdk.MessagePlaces

/-!
# Which commits a channel has behind it

A run of `resume_channel_difference` starts behind the saved position and behind the
largest stored `pts`, whichever is larger, and saves the position behind each page.
So a commit is lost for good if something lets one of the two pass it: a push, an
acknowledgement or a history page with a larger `pts`, a position that is saved before
the history has come, a mutation that is applied without its target, or a batch that is
dropped although its key stays.

This module says what it means that a commit is covered, when a step is careful
(`StepMeets`), and what then stays true of the actor (`Kept`).  Its lemmas are about
the parts that the steps share: the entries of the pipeline, the queue, the pending
mutations and the pages.
-/

namespace PrivchatSdk
namespace Difference

open StatementExec RelTable Receive

section Server

/--
The commits of a channel on the server.  An event id names one mutation of a message,
and a channel with commits has an id and a type.
-/
structure ServerLog (t : Timeline) where
  commits : List ServerCommit
  increasing : LogPages.Increasing ServerCommit.pts commits
  pts_pos : ∀ c ∈ commits, 0 < c.pts
  serverMsgId_pos : ∀ c ∈ commits, 0 < c.serverMsgId
  channel : ∀ c ∈ commits, c.channelId = t.channelId ∧ c.channelType = t.channelType
  known : ∀ c ∈ commits, 0 < t.channelId ∧ 0 < t.channelType ∧ t.channelType < 256
  events : ∀ c ∈ commits, ∀ c' ∈ commits, ∀ eventId target,
    c.eventId = some eventId → c'.eventId = some eventId →
    mutationTarget c = some target → mutationTarget c' = some target → c.pts = c'.pts

variable (codec : Codec)

/-- A commit as it enters the pipeline from the difference of its channel. -/
def commitEntry (t : Timeline) (c : ServerCommit) : Entry ItemPayload :=
  let item := codec.syncItemFromDifferenceCommit c
  { entityType := itemType item
    scope := some t.scope
    item := itemEntity item }

/-- The commit is a message, not a change of one. -/
def IsMessage (c : ServerCommit) : Prop :=
  itemType (codec.syncItemFromDifferenceCommit c) = "message"

/-- The two are the same change, under whatever entity id. -/
structure SameMutation (e e' : Entry ItemPayload) : Prop where
  entityType : e.entityType = e'.entityType
  scope : e.scope = e'.scope
  version : e.item.version = e'.item.version
  payload : e.item.payload = e'.item.payload

/-- The message that the item changes is stored in its channel. -/
def TargetStored (e : Entry ItemPayload) (s : Store) : Prop :=
  let item := readItem ItemPayload.asValue e.item
  ∃ r ∈ s.message.rows, r.serverMessageId = some (rawMessageId item) ∧
    r.channelId = itemChannelId e.scope (itemPayload item) ∧
    r.channelType = itemChannelType e.scope (itemPayload item)

/--
A message has been applied if it has been stored, a mutation if its item was applied to
a store with its target.
-/
inductive Applied (a : SyncActor) (t : Timeline) (c : ServerCommit) : Prop
  | message (htype : IsMessage codec c) (s : Store) (hs : s ∈ a.stores)
      (hstored : Stored c.serverMsgId s)
  | mutation (htype : ¬ IsMessage codec c) (turn : Turn) (hturn : turn ∈ a.turns)
      (hsame : SameMutation turn.entry (commitEntry codec t c))
      (htarget : TargetStored turn.entry turn.before)

/-- The commit waits among the pending mutations. -/
def Held (a : SyncActor) (t : Timeline) (c : ServerCommit) : Prop :=
  ∃ m ∈ a.pendingMutations, m.channelId = t.channelId ∧ m.channelType = t.channelType ∧
    m.pts = c.pts ∧ m.canonicalEvent = c.canonicalEvent

def Covered (a : SyncActor) (t : Timeline) (c : ServerCommit) : Prop :=
  Applied codec a t c ∨ Held a t c

variable (log : ∀ t, ServerLog t)

/-- Every commit at or before the saved position is covered. -/
def SkipsNothing (a : SyncActor) : Prop :=
  ∀ t p, a.resumePts t = some p → ∀ c ∈ (log t).commits, c.pts ≤ p → Covered codec a t c

end Server

section Conditions

variable (codec : Codec) (currentUid : Option Nat) (log : ∀ t, ServerLog t)
variable (a : SyncActor) (f : Faults)

/-- A message may stand at the place: no other commit up to there is left out. -/
def ReadyFor (place : MessagePlace) : Prop :=
  0 ≤ place.pts ∧ ∀ t : Timeline, place.channelId = t.channelId →
    place.channelType = (t.channelType : Int) →
    ∀ c ∈ (log t).commits, (c.pts : Int) ≤ place.pts →
      Covered codec a t c ∨
        IsMessage codec c ∧ place.serverMessageId = some c.serverMsgId

/-- The push tells of a commit of its channel. -/
structure PushOf (push : PushMessageRequest) (event : CanonicalTimelineEvent)
    (c : ServerCommit) : Prop where
  pts : c.pts = push.messageSeq
  event : c.canonicalEvent = some event
  message : IsMessage codec c → c.serverMsgId = push.serverMessageId
  eventId : ¬ IsMessage codec c → c.eventId = some push.serverMessageId

/-- The commit is a message of a history page that meets no failure. -/
def BroughtBy (items : List MessageHistoryItem) (c : ServerCommit) : Prop :=
  (∃ now, f.env = .calm now) ∧ ∃ item ∈ items, item.messageId = c.serverMsgId

/-- The type that the rows of a history page get. -/
def historyType (channelType : Nat) : Int :=
  if channelType = 0 then 1 else channelType

/-- The messages of a history page may stand where they are put. -/
def HistoryMeets (items : List MessageHistoryItem) (channelType : Nat) : Prop :=
  ∀ item ∈ items,
    let place := (codec.historyItemToUpsertInput item (historyType channelType)).place
    0 ≤ place.pts ∧ ∀ t : Timeline, place.channelId = t.channelId →
      place.channelType = (t.channelType : Int) →
      ∀ c ∈ (log t).commits, (c.pts : Int) ≤ place.pts →
        Covered codec a t c ∨
          IsMessage codec c ∧ (item.messageId = c.serverMsgId ∨ BroughtBy f items c)

/-- An acknowledgement may move the message that it names. -/
def AckMeets (messageId serverMessageId messageSeq : Nat) : Prop :=
  ∀ row, a.store.message.byRowid messageId = some row →
    ReadyFor codec log a
      { row.place with
        serverMessageId := some serverMessageId
        pts := messageSeq }

def CommandMeets : Command → Prop
  | .resume _ => True
  | .timelinePush push event =>
      ∃ c ∈ (log { channelId := push.channelId, channelType := push.channelType }).commits,
        PushOf codec push event c
  | .messagePushes _ => True
  | .createLocalMessage _ _ => True
  | .outboxAckSent messageId serverMessageId messageSeq =>
      AckMeets codec log a messageId serverMessageId messageSeq
  | .markMessageSent messageId serverMessageId messageSeq =>
      AckMeets codec log a messageId serverMessageId messageSeq
  | .history items channelType => HistoryMeets codec log a f items channelType

/--
A channel that has to start over: what the new position passes is covered, or comes
with the history.
-/
def ResyncMeets (t : Timeline) (currentPts : Nat)
    (history : Option (List MessageHistoryItem)) : Prop :=
  (∀ c ∈ (log t).commits, c.pts ≤ currentPts →
    Covered codec a t c ∨
      IsMessage codec c ∧ ∃ items, history = some items ∧ BroughtBy f items c) ∧
  ∀ items, history = some items → HistoryMeets codec log a f items t.channelType

def ReplyMeets (r : DifferenceReply) : Prop :=
  match a.task, r with
  | .fetch t _ _, .resyncRequired (some currentPts) history =>
      ResyncMeets codec log a f t currentPts history
  | _, _ => True

/-- The item is that of the commit which a resume run has come to. -/
def OwnCommit (after : AfterApply) (e : Entry ItemPayload) : Prop :=
  ∃ c page, after = .commit c (.page page) ∧ e = commitEntry codec page.timeline c

/-- The message of the item may stand where its upsert puts it, and is taken. -/
def UpsertMeets (after : AfterApply) (e : Entry ItemPayload) : Prop :=
  ∀ input, codec.messageItemAction e.scope f.env.now
      (readItem ItemPayload.asMessage e.item) = .upsert input →
    (OwnCommit codec after e ∨ ReadyFor codec log a input.place) ∧
      (a.store.byServerId input.serverMessageId = none →
        ∀ row, a.store.byInputLocalId currentUid input = some row →
          input.stale row = false)

/--
An item may be applied: a message where it is put, a mutation to its target; and if it
fails, no batch waits behind it.
-/
structure TurnMeets (batch : SyncBatch ItemPayload) (item : SyncEntityItem ItemPayload)
    (batches : List OpenBatch) (after : AfterApply) : Prop where
  message : batch.entityType = "message" →
    UpsertMeets codec currentUid log a f after
      { entityType := batch.entityType, scope := batch.scope, item := item }
  mutation : batch.entityType ≠ "message" →
    TargetStored { entityType := batch.entityType, scope := batch.scope, item := item }
      a.store
  alone : ∀ e s, applySyncEntity codec currentUid batch.entityType batch.scope item f.env
    a.store = (.error e, s) → batches = []

/-- The condition of a step, on the state before it and what the step is given. -/
def StepMeets (a : SyncActor) (e : Faults × SyncEvent) : Prop :=
  match e.2 with
  | .command c => a.task = .idle → CommandMeets codec log a e.1 c
  | .reply r => ReplyMeets codec log a e.1 r
  | .proceed =>
      match a.task with
      | .apply ((batch, item :: _) :: batches) after =>
          TurnMeets codec currentUid log a e.1 batch item batches after
      | _ => True
  | .cancel =>
      match a.task with
      | .apply batches _ => ∀ b ∈ batches, b.2 = []
      | _ => True

end Conditions

section Entries

variable {codec : Codec} {log : ∀ t, ServerLog t}

theorem colon_not_mem (n : Nat) : ':' ∉ (toString n).toList :=
  fun hcolon => absurd (isDigit_of_mem_version hcolon) (by decide)

theorem Timeline.scope_toList (t : Timeline) :
    t.scope.toList = (toString t.channelType).toList ++
      ':' :: (toString t.channelId).toList := by
  simp [Timeline.scope]

theorem Timeline.scope_inj {t t' : Timeline} (h : t.scope = t'.scope) : t = t' := by
  have hlist := congrArg String.toList h
  rw [Timeline.scope_toList, Timeline.scope_toList] at hlist
  obtain ⟨htype, hid⟩ := separator_append_inj (colon_not_mem _) (colon_not_mem _) hlist
  cases t
  cases t'
  simp only [Timeline.mk.injEq]
  exact ⟨version_inj hid, version_inj htype⟩

theorem Timeline.bar_not_mem_scope (t : Timeline) : '|' ∉ t.scope.toList := by
  rw [Timeline.scope_toList, List.mem_append, List.mem_cons]
  rintro (htype | hcolon | hid)
  · exact bar_not_mem_version _ htype
  · exact absurd hcolon (by decide)
  · exact bar_not_mem_version _ hid

theorem Timeline.scope_ne_empty (t : Timeline) : t.scope ≠ "" := by
  intro h
  have hlist := congrArg String.toList h
  rw [Timeline.scope_toList] at hlist
  simp at hlist

/-- The channel that a message item names, or that of its scope. -/
def entryChannel (e : Entry ItemPayload) : Nat :=
  (canonicalOfItem e.scope 0 (readItem ItemPayload.asMessage e.item)).channelId

/-- The server id that a message item names. -/
def entryServerId (e : Entry ItemPayload) : Nat :=
  messageItemServerId (readItem ItemPayload.asMessage e.item)

/-- What the entries of the pipeline look like. -/
structure Built (codec : Codec) (log : ∀ t, ServerLog t) (e : Entry ItemPayload) :
    Prop where
  type : '|' ∉ e.entityType.toList
  scope : e.scope = none ∨ ∃ t : Timeline, e.scope = some t.scope
  message : e.entityType = "message" →
    e.item.entityId = toString (entryServerId e) ∧
      (e.scope ≠ none → 0 < entryServerId e ∧ 0 < entryChannel e)
  mutation : e.entityType ≠ "message" →
    ∃ t, ∃ c ∈ (log t).commits, SameMutation e (commitEntry codec t c)

/-- Entries with one key agree in all that is not payload. -/
theorem Built.same_of_key {e e' : Entry ItemPayload} (h : Built codec log e)
    (h' : Built codec log e') (hkey : e.key = e'.key) :
    e.entityType = e'.entityType ∧ e.scope = e'.scope ∧
      e.item.entityId = e'.item.entityId ∧ e.item.version = e'.item.version ∧
      e.item.deleted = e'.item.deleted := by
  have hbar : ∀ {x : Entry ItemPayload}, Built codec log x →
      '|' ∉ (x.scope.getD "").toList ∧ x.scope ≠ some "" := by
    intro x hx
    rcases hx.scope with hnone | ⟨t, hsome⟩
    · simp [hnone]
    · rw [hsome]
      exact ⟨t.bar_not_mem_scope, fun hempty => t.scope_ne_empty (Option.some.inj hempty)⟩
  obtain ⟨htext, hversion, hdeleted⟩ := (Entry.key_eq_iff e e').mp hkey
  obtain ⟨htype, hscope, hid⟩ := Entry.text_inj htext h.type h'.type (hbar h).1
    (hbar h').1 (hbar h).2 (hbar h').2
  exact ⟨htype, hscope, hid, hversion, hdeleted⟩

theorem ServerLog.eq_of_pts {t : Timeline} (l : ServerLog t) {c c' : ServerCommit}
    (hc : c ∈ l.commits) (hc' : c' ∈ l.commits) (h : c.pts = c'.pts) : c = c' :=
  l.increasing.eq_of_position hc hc' h

/-- The three kinds of items that a commit becomes. -/
theorem commitEntry_cases (codec : Codec) (t : Timeline) (c : ServerCommit) :
    ((commitEntry codec t c).entityType = "message" ∧ ∃ messageType contentAndExtra,
      (commitEntry codec t c).item =
        queued .message (commitMessageItem c messageType contentAndExtra)) ∨
    (((commitEntry codec t c).entityType = "message_extra" ∨
        (commitEntry codec t c).entityType = "message_reaction") ∧
      (commitEntry codec t c).item.version = c.pts) := by
  unfold commitEntry Codec.syncItemFromDifferenceCommit
  cases c.canonicalEvent with
  | some event =>
      cases event with
      | newMessage messageType legacy =>
          exact Or.inl ⟨rfl, _, _, rfl⟩
      | revoke target revokedBy revokedAt =>
          exact Or.inr ⟨Or.inl rfl, rfl⟩
      | reactionChange target actorId emoji remove =>
          exact Or.inr ⟨Or.inr rfl, rfl⟩
  | none =>
      dsimp only
      unfold Codec.syncItemFromLegacyDifferenceCommit
      split
      · exact Or.inr ⟨Or.inl rfl, rfl⟩
      · split
        · exact Or.inr ⟨Or.inr rfl, rfl⟩
        · exact Or.inl ⟨rfl, _, _, rfl⟩

/-- The entry of a commit that is a message. -/
theorem commitEntry_message {t : Timeline} {c : ServerCommit} (h : IsMessage codec c) :
    ∃ messageType contentAndExtra, (commitEntry codec t c).item =
      queued .message (commitMessageItem c messageType contentAndExtra) := by
  rcases commitEntry_cases codec t c with ⟨-, hitem⟩ | ⟨htype, -⟩
  · exact hitem
  · have hmessage : (commitEntry codec t c).entityType = "message" := h
    rcases htype with htype | htype
    · rw [hmessage] at htype
      exact absurd htype (by decide)
    · rw [hmessage] at htype
      exact absurd htype (by decide)

theorem commitEntry_version {t : Timeline} {c : ServerCommit} (h : ¬ IsMessage codec c) :
    (commitEntry codec t c).item.version = c.pts := by
  rcases commitEntry_cases codec t c with ⟨htype, -⟩ | ⟨-, hversion⟩
  · exact absurd htype h
  · exact hversion

theorem commitEntry_type_bar (codec : Codec) (t : Timeline) (c : ServerCommit) :
    '|' ∉ (commitEntry codec t c).entityType.toList := by
  rcases commitEntry_cases codec t c with ⟨htype, -⟩ | ⟨htype | htype, -⟩
  · rw [htype]
    decide
  · rw [htype]
    decide
  · rw [htype]
    decide

/-- The entry of a commit is built if its message is known or its change logged. -/
theorem built_entry {t : Timeline} {c : ServerCommit}
    (hmessage : IsMessage codec c → 0 < c.serverMsgId ∧ 0 < c.channelId)
    (hmutation : ¬ IsMessage codec c →
      ∃ t', ∃ c' ∈ (log t').commits,
        SameMutation (commitEntry codec t c) (commitEntry codec t' c')) :
    Built codec log (commitEntry codec t c) where
  type := commitEntry_type_bar codec t c
  scope := Or.inr ⟨t, rfl⟩
  message htype := by
    obtain ⟨messageType, contentAndExtra, hitem⟩ := commitEntry_message htype
    have hserver : entryServerId (commitEntry codec t c) = c.serverMsgId := by
      unfold entryServerId
      rw [hitem]
      rfl
    have hchannel : entryChannel (commitEntry codec t c) = c.channelId := by
      unfold entryChannel
      rw [hitem]
      rfl
    rw [hserver, hchannel]
    exact ⟨by rw [hitem]; rfl, fun _ => hmessage htype⟩
  mutation hne := hmutation hne

theorem built_commitEntry {t : Timeline} {c : ServerCommit}
    (hc : c ∈ (log t).commits) : Built codec log (commitEntry codec t c) := by
  refine built_entry (fun _ => ?_) (fun _ => ⟨t, c, hc, ⟨rfl, rfl, rfl, rfl⟩⟩)
  rw [((log t).channel c hc).1]
  exact ⟨(log t).serverMsgId_pos c hc, ((log t).known c hc).1⟩

/-- The entries of ordinary pushes are built. -/
theorem built_pushEntry (codec : Codec) (log : ∀ t, ServerLog t)
    (push : PushMessageRequest) :
    Built codec log
      { entityType := "message"
        scope := none
        item := queued .message (codec.pushMessageToSyncItem push) } where
  type := by
    change '|' ∉ "message".toList
    decide
  scope := Or.inl rfl
  message _ := ⟨rfl, fun hscope => absurd rfl hscope⟩
  mutation hne := absurd rfl hne

/-- Two commits with the same event become the same change. -/
theorem sameMutation_of_event {t : Timeline} {c c' : ServerCommit}
    {event : CanonicalTimelineEvent} (hne : ¬ IsMessage codec c)
    (hevent : c.canonicalEvent = some event) (hevent' : c'.canonicalEvent = some event)
    (hpts : c.pts = c'.pts) (hchannel : c.channelId = c'.channelId)
    (htype : c.channelType = c'.channelType) :
    SameMutation (commitEntry codec t c) (commitEntry codec t c') := by
  unfold IsMessage Codec.syncItemFromDifferenceCommit at hne
  rw [hevent] at hne
  unfold commitEntry Codec.syncItemFromDifferenceCommit
  rw [hevent, hevent']
  cases event with
  | newMessage messageType legacy =>
      exact absurd rfl hne
  | revoke target revokedBy revokedAt =>
      refine { entityType := rfl, scope := rfl, version := hpts, payload := ?_ }
      simp [itemEntity, queued, readItem, Codec.syncItemFromCanonicalDifferenceEvent,
        hchannel, htype]
  | reactionChange target actorId emoji remove =>
      refine { entityType := rfl, scope := rfl, version := hpts, payload := ?_ }
      simp [itemEntity, queued, readItem, Codec.syncItemFromCanonicalDifferenceEvent,
        hchannel, htype]

theorem isMessage_congr {c c' : ServerCommit} {event : CanonicalTimelineEvent}
    (hevent : c.canonicalEvent = some event) (hevent' : c'.canonicalEvent = some event) :
    IsMessage codec c ↔ IsMessage codec c' := by
  unfold IsMessage Codec.syncItemFromDifferenceCommit
  rw [hevent, hevent']
  cases event with
  | newMessage messageType legacy => exact Iff.rfl
  | revoke target revokedBy revokedAt => exact Iff.rfl
  | reactionChange target actorId emoji remove => exact Iff.rfl

/-- A commit with a target changes a message. -/
theorem not_isMessage_of_target {c : ServerCommit} {target : Nat}
    (h : mutationTarget c = some target) : ¬ IsMessage codec c := by
  unfold mutationTarget at h
  unfold IsMessage Codec.syncItemFromDifferenceCommit
  cases hevent : c.canonicalEvent with
  | none =>
      rw [hevent] at h
      cases h
  | some event =>
      rw [hevent] at h
      cases event with
      | newMessage messageType legacy =>
          cases h
      | revoke target revokedBy revokedAt =>
          change ¬ ("message_extra" = "message")
          decide
      | reactionChange target actorId emoji remove =>
          change ¬ ("message_reaction" = "message")
          decide

end Entries

section Grows

variable {codec : Codec} {log : ∀ t, ServerLog t}

/-- The effect of an item that was applied. -/
structure Landed (a : SyncActor) (e : Entry ItemPayload) : Prop where
  message : e.entityType = "message" → 0 < entryServerId e → e.item.deleted = false →
    0 < entryChannel e → ∃ s ∈ a.stores, Stored (entryServerId e) s
  mutation : e.entityType ≠ "message" →
    ∃ turn ∈ a.turns, turn.entry = e ∧ TargetStored turn.entry turn.before

/-- Nothing that was covered is uncovered. -/
structure Grows (codec : Codec) (log : ∀ t, ServerLog t) (a a' : SyncActor) : Prop where
  stores : ∀ s ∈ a.stores, s ∈ a'.stores
  turns : ∀ turn ∈ a.turns, turn ∈ a'.turns
  held : ∀ t, ∀ c ∈ (log t).commits, Held a t c → Covered codec a' t c

variable {a a' : SyncActor}

theorem Applied.grow {t : Timeline} {c : ServerCommit}
    (hstores : ∀ s ∈ a.stores, s ∈ a'.stores)
    (hturns : ∀ turn ∈ a.turns, turn ∈ a'.turns)
    (h : Applied codec a t c) : Applied codec a' t c := by
  cases h with
  | message htype s hs hstored =>
      exact .message htype s (hstores s hs) hstored
  | mutation htype turn hturn hsame htarget =>
      exact .mutation htype turn (hturns turn hturn) hsame htarget

theorem Grows.covered (h : Grows codec log a a') {t : Timeline} {c : ServerCommit}
    (hc : c ∈ (log t).commits) (hcovered : Covered codec a t c) :
    Covered codec a' t c := by
  rcases hcovered with happlied | hheld
  · exact Or.inl (happlied.grow h.stores h.turns)
  · exact h.held t c hc hheld

theorem Grows.landed (h : Grows codec log a a') {e : Entry ItemPayload}
    (hlanded : Landed a e) : Landed a' e where
  message htype hsid hlive hchannel := by
    obtain ⟨s, hs, hstored⟩ := hlanded.message htype hsid hlive hchannel
    exact ⟨s, h.stores s hs, hstored⟩
  mutation htype := by
    obtain ⟨turn, hturn, hentry⟩ := hlanded.mutation htype
    exact ⟨turn, h.turns turn hturn, hentry⟩

/-- With the pending mutations as they are, more stores and turns cover more. -/
theorem grows_of_pending (hstores : ∀ s ∈ a.stores, s ∈ a'.stores)
    (hturns : ∀ turn ∈ a.turns, turn ∈ a'.turns)
    (hpending : a'.pendingMutations = a.pendingMutations) : Grows codec log a a' where
  stores := hstores
  turns := hturns
  held t c _ hheld := by
    unfold Held at hheld
    rw [← hpending] at hheld
    exact Or.inr hheld

/-- The entry of a message that landed stands for the commit with its key. -/
theorem Landed.applied_message {e : Entry ItemPayload} (h : Landed a e)
    (hb : Built codec log e) {t : Timeline} {c : ServerCommit}
    (hc : c ∈ (log t).commits) (hmessage : IsMessage codec c)
    (hkey : e.key = (commitEntry codec t c).key) : Applied codec a t c := by
  obtain ⟨htype, hscope, hid, -, hdeleted⟩ := hb.same_of_key (built_commitEntry hc) hkey
  have hetype : e.entityType = "message" := htype.trans hmessage
  obtain ⟨messageType, contentAndExtra, hitem⟩ := commitEntry_message hmessage
  obtain ⟨hentityId, hpositive⟩ := hb.message hetype
  have hne : e.scope ≠ none := by
    rw [hscope]
    exact fun hnone => by cases hnone
  have hsid : entryServerId e = c.serverMsgId := by
    rw [hentityId, hitem] at hid
    exact version_inj (congrArg String.toList hid)
  have hlive : e.item.deleted = false := by
    rw [hdeleted, hitem]
    rfl
  obtain ⟨s, hs, hstored⟩ := h.message hetype (hpositive hne).1 hlive (hpositive hne).2
  exact .message hmessage s hs (hsid ▸ hstored)

/-- The entry of a change that landed stands for the commit at its version. -/
theorem Landed.applied_mutation {e : Entry ItemPayload} (h : Landed a e)
    (hb : Built codec log e) {t : Timeline} {c : ServerCommit}
    (hc : c ∈ (log t).commits) (hne : ¬ IsMessage codec c)
    (htype : e.entityType = (commitEntry codec t c).entityType)
    (hscope : e.scope = some t.scope) (hversion : e.item.version = c.pts) :
    Applied codec a t c := by
  have hetype : e.entityType ≠ "message" := fun heq => hne (htype.symm.trans heq)
  obtain ⟨turn, hturn, hentry, htarget⟩ := h.mutation hetype
  obtain ⟨t', c', hc', hsame⟩ := hb.mutation hetype
  have hscopes : t = t' := by
    have heq := hscope.symm.trans hsame.scope
    exact Timeline.scope_inj (Option.some.inj heq)
  subst hscopes
  have hne' : ¬ IsMessage codec c' := fun heq => hetype (hsame.entityType.trans heq)
  have hpts : c.pts = c'.pts := by
    rw [← hversion, hsame.version, commitEntry_version hne']
  obtain rfl := (log t).eq_of_pts hc hc' hpts
  exact .mutation hne turn hturn (hentry ▸ hsame) htarget

end Grows

section Invariant

variable (codec : Codec) (log : ∀ t, ServerLog t)

/-- The mutation is that of a commit of its channel. -/
def Truthful (m : PendingTimelineMutation) : Prop :=
  ∃ c ∈ (log m.timeline).commits, c.pts = m.pts ∧ c.canonicalEvent = m.canonicalEvent ∧
    mutationTarget c = some m.targetServerMessageId ∧ c.eventId = some m.eventId

/-- The entry with the key has landed or is among these. -/
def Awaited (a : SyncActor) (entries : List (Entry ItemPayload)) (key : String) : Prop :=
  ∃ e : Entry ItemPayload, e.key = key ∧ Built codec log e ∧ (Landed a e ∨ e ∈ entries)

/-- The items of the open batches that are still to be applied. -/
def openEntries (batches : List OpenBatch) : List (Entry ItemPayload) :=
  batches.flatMap (fun b => b.2.map (fun item =>
    { entityType := b.1.entityType, scope := b.1.scope, item := item }))

def Task.entries : Task → List (Entry ItemPayload)
  | .apply batches _ => openEntries batches
  | _ => []

/-- A page of the log; up to its position and on it up to `rest` all is covered. -/
structure PageKept (a : SyncActor) (page : Page) : Prop where
  commits : ∃ n, page.commits =
    (LogPages.behind ServerCommit.pts (log page.timeline).commits page.lastPts).take n
  low : ∀ c ∈ (log page.timeline).commits, c.pts ≤ page.lastPts →
    Covered codec a page.timeline c
  front : ∃ front, page.commits = front ++ page.rest ∧
    ∀ c ∈ front, Covered codec a page.timeline c

def CallerKept (a : SyncActor) : Caller → Prop
  | .page page => PageKept codec log a page
  | .push => True

/-- What comes after the open batches knows the entry that it waits for. -/
def AfterKept (a : SyncActor) (entries : List (Entry ItemPayload)) : AfterApply → Prop
  | .commit c (.page page) =>
      PageKept codec log a page ∧ page.rest.head? = some c ∧
        Awaited codec log a entries (commitEntry codec page.timeline c).key
  | .commit _ .push => True
  | .mutation m rest caller =>
      Truthful log m ∧ (∀ m' ∈ rest, Truthful log m') ∧ CallerKept codec log a caller ∧
        ∃ event, m.canonicalEvent = some event ∧
          Awaited codec log a entries
            (commitEntry codec m.timeline (replayCommit m event)).key
  | .pushes => True

/-- The items left are of their batch, and the batch is built. -/
def BatchKept (b : OpenBatch) : Prop :=
  (∀ item ∈ b.2, item ∈ b.1.items) ∧ ∀ e ∈ b.1.entries, Built codec log e

def TaskKept (a : SyncActor) : Task → Prop
  | .idle => True
  | .fetch t lastPts _ => ∀ c ∈ (log t).commits, c.pts ≤ lastPts → Covered codec a t c
  | .page page => PageKept codec log a page
  | .apply batches after =>
      a.receivePipeline.queue = [] ∧ (∀ b ∈ batches, BatchKept codec log b) ∧
        AfterKept codec log a (openEntries batches) after
  | .replay mutations caller =>
      (∀ m ∈ mutations, Truthful log m) ∧ CallerKept codec log a caller
  | .reconcile _ => True

/-- Every commit that the message reaches is covered. -/
def StandsWell (a : SyncActor) (r : MessageRow) : Prop :=
  0 ≤ r.pts ∧ ∀ t : Timeline, t.has r = true → ∀ c ∈ (log t).commits,
    (c.pts : Int) ≤ r.pts → Covered codec a t c

structure StoreKept (a : SyncActor) : Prop where
  rows : ∀ r ∈ a.store.message.rows, StandsWell codec log a r
  current : a.store ∈ a.stores

/-- A remembered key stands for an item that landed or waits. -/
structure PipelineKept (a : SyncActor) : Prop where
  keys : ∀ key ∈ a.receivePipeline.recentKeys,
    Awaited codec log a (a.receivePipeline.waiting ++ a.task.entries) key
  batches : ∀ b ∈ a.receivePipeline.queue, ∀ e ∈ b.entries, Built codec log e

/-- What every step keeps. -/
structure Kept (a : SyncActor) : Prop where
  store : StoreKept codec log a
  cursors : SkipsNothing codec log a
  pending : ∀ m ∈ a.pendingMutations, Truthful log m
  pipeline : PipelineKept codec log a
  task : TaskKept codec log a a.task

end Invariant

section Growing

variable {codec : Codec} {log : ∀ t, ServerLog t} {a a' : SyncActor}

theorem Awaited.grow (h : Grows codec log a a')
    {entries entries' : List (Entry ItemPayload)}
    (hentries : ∀ e ∈ entries, Landed a' e ∨ e ∈ entries') {key : String}
    (hawaited : Awaited codec log a entries key) : Awaited codec log a' entries' key := by
  obtain ⟨e, hkey, hbuilt, hlanded | hopen⟩ := hawaited
  · exact ⟨e, hkey, hbuilt, Or.inl (h.landed hlanded)⟩
  · exact ⟨e, hkey, hbuilt, hentries e hopen⟩

theorem PageKept.grow (h : Grows codec log a a') {page : Page}
    (hpage : PageKept codec log a page) : PageKept codec log a' page where
  commits := hpage.commits
  low c hc hle := h.covered hc (hpage.low c hc hle)
  front := by
    obtain ⟨front, hsplit, hcovered⟩ := hpage.front
    obtain ⟨n, hn⟩ := hpage.commits
    refine ⟨front, hsplit, fun c hc => h.covered ?_ (hcovered c hc)⟩
    have hmem : c ∈ page.commits := hsplit ▸ List.mem_append_left _ hc
    rw [hn] at hmem
    exact (LogPages.mem_behind.mp (List.mem_of_mem_take hmem)).1

theorem CallerKept.grow (h : Grows codec log a a') {caller : Caller}
    (hcaller : CallerKept codec log a caller) : CallerKept codec log a' caller := by
  cases caller with
  | page page => exact PageKept.grow h hcaller
  | push => trivial

theorem AfterKept.grow (h : Grows codec log a a')
    {entries entries' : List (Entry ItemPayload)}
    (hentries : ∀ e ∈ entries, Landed a' e ∨ e ∈ entries') {after : AfterApply}
    (hafter : AfterKept codec log a entries after) :
    AfterKept codec log a' entries' after := by
  cases after with
  | commit c caller =>
      cases caller with
      | page page =>
          obtain ⟨hpage, hhead, hawaited⟩ := hafter
          exact ⟨hpage.grow h, hhead, hawaited.grow h hentries⟩
      | push =>
          trivial
  | mutation m rest caller =>
      obtain ⟨htrue, hrest, hcaller, event, hevent, hawaited⟩ := hafter
      exact ⟨htrue, hrest, hcaller.grow h, event, hevent, hawaited.grow h hentries⟩
  | pushes =>
      trivial

theorem TaskKept.grow (h : Grows codec log a a')
    (hqueue : a'.receivePipeline = a.receivePipeline) {task : Task}
    (htask : TaskKept codec log a task) : TaskKept codec log a' task := by
  cases task with
  | idle => trivial
  | fetch t lastPts pages => exact fun c hc hle => h.covered hc (htask c hc hle)
  | page page => exact PageKept.grow h htask
  | apply batches after =>
      obtain ⟨hnone, hbatches, hafter⟩ := htask
      exact ⟨hqueue ▸ hnone, hbatches, hafter.grow h (fun e he => Or.inr he)⟩
  | replay mutations caller => exact ⟨htask.1, htask.2.grow h⟩
  | reconcile t => trivial

theorem SkipsNothing.grow (h : Grows codec log a a') (hcursors : a'.resumePts = a.resumePts)
    (hkept : SkipsNothing codec log a) : SkipsNothing codec log a' := by
  intro t p hp c hc hle
  rw [hcursors] at hp
  exact h.covered hc (hkept t p hp c hc hle)

theorem StandsWell.grow (h : Grows codec log a a') {r r' : MessageRow}
    (hplace : r.place = r'.place) (hr : StandsWell codec log a r) :
    StandsWell codec log a' r' := by
  simp only [MessageRow.place, MessagePlace.mk.injEq] at hplace
  obtain ⟨-, hpts, hid, htype⟩ := hplace
  unfold StandsWell Timeline.has at hr ⊢
  rw [← hpts, ← hid, ← htype]
  exact ⟨hr.1, fun t hhas c hc hle => h.covered hc (hr.2 t hhas c hc hle)⟩

theorem StoreKept.grow (h : Grows codec log a a') (hstore : a'.store = a.store)
    (hkept : StoreKept codec log a) : StoreKept codec log a' where
  rows r hr := by
    rw [hstore] at hr
    exact (hkept.rows r hr).grow h rfl
  current := by
    rw [hstore]
    exact h.stores _ hkept.current

/-- Messages at old places stand as well as before, and the others must do so. -/
theorem StoreKept.placed (hkept : StoreKept codec log a) (h : Grows codec log a a')
    {new : MessagePlace → Prop} (hplaced : PlacedFrom new a.store a'.store)
    (hcurrent : a'.store ∈ a'.stores)
    (hnew : ∀ r ∈ a'.store.message.rows, new r.place → StandsWell codec log a' r) :
    StoreKept codec log a' where
  rows r' hr' := by
    rcases hplaced r' hr' with ⟨r, hr, hplace⟩ | hplace
    · exact (hkept.rows r hr).grow h hplace
    · exact hnew r' hr' hplace
  current := hcurrent

/-- A message at a place that was ready for it stands well. -/
theorem ReadyFor.standsWell {place : MessagePlace} (hready : ReadyFor codec log a place)
    (h : Grows codec log a a') {r : MessageRow} (hplace : r.place = place)
    (hr : r ∈ a'.store.message.rows) (hcurrent : a'.store ∈ a'.stores) :
    StandsWell codec log a' r := by
  subst hplace
  refine ⟨hready.1, fun t hhas c hc hle => ?_⟩
  simp only [Timeline.has, Bool.and_eq_true, beq_iff_eq] at hhas
  rcases hready.2 t hhas.1 hhas.2 c hc hle with hcovered | ⟨hmessage, hsid⟩
  · exact h.covered hc hcovered
  · exact Or.inl (.message hmessage _ hcurrent ⟨r, hr, hsid⟩)

/-- A message that a history page brings is stored by it. -/
theorem BroughtBy.stored {f : Faults} {items : List MessageHistoryItem} {c : ServerCommit}
    {currentUid : Option Nat} {s : Store} (h : BroughtBy f items c) (channelType : Int)
    (hpos : 0 < c.serverMsgId) :
    Stored c.serverMsgId
      ((codec.storeHistoryItems currentUid items channelType).after f.env s) := by
  obtain ⟨⟨now, hnow⟩, item, hitem, hid⟩ := h
  rw [hnow, ← hid]
  exact stored_of_history items channelType now s hitem (hid ▸ hpos)

/-- A step that leaves positions and pipeline alone. -/
theorem Kept.grow (h : Grows codec log a a') (hkept : Kept codec log a)
    (hstore : StoreKept codec log a') (hcursors : a'.resumePts = a.resumePts)
    (hpipeline : a'.receivePipeline = a.receivePipeline)
    (hpending : ∀ m ∈ a'.pendingMutations, Truthful log m)
    (hentries : ∀ e ∈ a.task.entries, Landed a' e ∨ e ∈ a'.task.entries)
    (htask : TaskKept codec log a' a'.task) : Kept codec log a' where
  store := hstore
  cursors := hkept.cursors.grow h hcursors
  pending := hpending
  pipeline :=
    { keys := by
        intro key hkey
        rw [hpipeline] at hkey ⊢
        refine (hkept.pipeline.keys key hkey).grow h (fun e he => ?_)
        rcases List.mem_append.mp he with hwaiting | hopen
        · exact Or.inr (List.mem_append_left _ hwaiting)
        · exact (hentries e hopen).imp_right (List.mem_append_right _)
      batches := by
        rw [hpipeline]
        exact hkept.pipeline.batches }
  task := htask

theorem grows_goto (codec : Codec) (log : ∀ t, ServerLog t) (a : SyncActor) (task : Task) :
    Grows codec log a (a.goto task) :=
  grows_of_pending (fun _ h => h) (fun _ h => h) rfl

/-- The actor goes on elsewhere, with nothing open left behind. -/
theorem Kept.goto (hkept : Kept codec log a) {task : Task}
    (htask : TaskKept codec log a task)
    (hentries : ∀ e ∈ a.task.entries, Landed a e ∨ e ∈ task.entries) :
    Kept codec log (a.goto task) := by
  have hgrows := grows_goto codec log a task
  refine hkept.grow hgrows (hkept.store.grow hgrows rfl) rfl rfl hkept.pending
    (fun e he => ?_) (htask.grow hgrows rfl)
  exact (hentries e he).imp_left hgrows.landed

theorem Kept.complete (hkept : Kept codec log a) (hnone : a.task.entries = [])
    (t : Timeline) : Kept codec log (a.complete t) := by
  have hgrows : Grows codec log a (a.complete t) :=
    grows_of_pending (fun _ h => h) (fun _ h => h) rfl
  refine hkept.grow hgrows (hkept.store.grow hgrows rfl) rfl rfl hkept.pending ?_ trivial
  rw [hnone]
  exact fun e he => absurd he List.not_mem_nil

theorem Kept.failed (hkept : Kept codec log a) (hnone : a.task.entries = []) :
    Kept codec log a.failed := by
  refine hkept.goto trivial ?_
  rw [hnone]
  exact fun e he => absurd he List.not_mem_nil

end Growing

section Pipeline

variable {π : Type} {p : ReceivePipeline π} {entityType : String} {scope : Option String}

theorem recentKeys_rememberKey {key k : String} (h : k ∈ (p.rememberKey key).recentKeys) :
    k = key ∨ k ∈ p.recentKeys := by
  simp only [ReceivePipeline.rememberKey, evictKeys_eq, Finset.mem_sdiff,
    Finset.mem_insert] at h
  exact h.1

/-- A key after an enqueue is an old one or that of an accepted item. -/
theorem recentKeys_acceptItems (items : List (SyncEntityItem π)) {k : String}
    (h : k ∈ (p.acceptItems entityType scope items).2.2.recentKeys) :
    k ∈ p.recentKeys ∨ ∃ e ∈ acceptedEntries p entityType scope items, e.key = k := by
  induction items generalizing p with
  | nil =>
      exact Or.inl h
  | cons item items ih =>
      rw [acceptedEntries_cons]
      rw [ReceivePipeline.acceptItems] at h
      dsimp only at h
      split at h
      · rename_i hold
        rw [if_pos hold]
        exact ih h
      · rename_i hnew
        rw [if_neg hnew]
        rcases ih h with hkey | ⟨e, he, hkey⟩
        · rcases recentKeys_rememberKey hkey with rfl | hkey
          · exact Or.inr ⟨_, List.mem_cons_self, rfl⟩
          · exact Or.inl hkey
        · exact Or.inr ⟨e, List.mem_cons_of_mem _ he, hkey⟩

theorem recentKeys_enqueue (items : List (SyncEntityItem π)) :
    (p.enqueue entityType scope items).2.recentKeys =
      (p.acceptItems entityType scope items).2.2.recentKeys := by
  unfold ReceivePipeline.enqueue
  dsimp only
  split
  · rfl
  · rfl

/-- Only items of the call are accepted. -/
theorem mem_of_mem_acceptItems (items : List (SyncEntityItem π))
    {item : SyncEntityItem π}
    (h : item ∈ (p.acceptItems entityType scope items).1) : item ∈ items := by
  induction items generalizing p with
  | nil =>
      exact h
  | cons first items ih =>
      rw [ReceivePipeline.acceptItems] at h
      dsimp only at h
      split at h
      · exact List.mem_cons_of_mem _ (ih h)
      · rcases List.mem_cons.mp h with rfl | h
        · exact List.mem_cons_self
        · exact List.mem_cons_of_mem _ (ih h)

theorem mem_acceptedEntries (items : List (SyncEntityItem π)) {e : Entry π}
    (h : e ∈ acceptedEntries p entityType scope items) :
    ∃ item ∈ items, e = { entityType := entityType, scope := scope, item := item } := by
  obtain ⟨item, hitem, rfl⟩ := List.mem_map.mp h
  exact ⟨item, mem_of_mem_acceptItems items hitem, rfl⟩

/-- A batch after an enqueue is an old one or the new one. -/
theorem mem_enqueue_queue (items : List (SyncEntityItem π)) {b : SyncBatch π}
    (h : b ∈ (p.enqueue entityType scope items).2.queue) :
    b ∈ p.queue ∨ b.entityType = entityType ∧ b.scope = scope ∧
      ∀ item ∈ b.items, item ∈ items := by
  rw [enqueue_queue, List.mem_append] at h
  refine h.imp_right (fun hnew => ?_)
  split at hnew
  · cases hnew
  · rw [List.mem_singleton] at hnew
    subst hnew
    exact ⟨rfl, rfl, fun item hitem => mem_of_mem_acceptItems items hitem⟩

end Pipeline

section Drain

variable {codec : Codec} {log : ∀ t, ServerLog t} {a : SyncActor}
variable {entityType : String} {scope : Option String}
variable {items : List (SyncEntityItem ItemPayload)} {after : AfterApply}

theorem openEntries_start (batches : List (SyncBatch ItemPayload)) :
    openEntries (batches.map (fun batch => (batch, batch.items))) = entriesOf batches := by
  unfold openEntries entriesOf
  rw [List.flatMap_map]
  rfl

/-- What a call waits for, once its items are enqueued. -/
theorem awaited_enqueue (hkept : Kept codec log a) (hnone : a.task.entries = [])
    (hbuilt : ∀ item ∈ items, Built codec log
      { entityType := entityType, scope := scope, item := item })
    {key : String}
    (hkey : key ∈ (a.receivePipeline.enqueue entityType scope items).2.recentKeys ∨
      key ∈ a.receivePipeline.recentKeys) :
    Awaited codec log a
      (a.receivePipeline.enqueue entityType scope items).2.waiting key := by
  have hold : key ∈ a.receivePipeline.recentKeys → Awaited codec log a
      (a.receivePipeline.enqueue entityType scope items).2.waiting key := by
    intro hold
    obtain ⟨e, hekey, heb, hcase⟩ := hkept.pipeline.keys key hold
    refine ⟨e, hekey, heb, hcase.imp_right (fun he => ?_)⟩
    rw [hnone, List.append_nil] at he
    rw [enqueue_waiting]
    exact List.mem_append_left _ he
  rcases hkey with hkey | hkey
  · rw [recentKeys_enqueue] at hkey
    rcases recentKeys_acceptItems items hkey with hkey | ⟨e, he, hekey⟩
    · exact hold hkey
    · obtain ⟨item, hitem, rfl⟩ := mem_acceptedEntries items he
      refine ⟨_, hekey, hbuilt item hitem, Or.inr ?_⟩
      rw [enqueue_waiting]
      exact List.mem_append_right _ he
  · exact hold hkey

/-- A single item is accepted, or one with its key was. -/
theorem awaited_single (hkept : Kept codec log a) (hnone : a.task.entries = [])
    {item : SyncEntityItem ItemPayload}
    (hbuilt : Built codec log
      { entityType := entityType, scope := scope, item := item }) :
    Awaited codec log a
      (a.receivePipeline.enqueue entityType scope [item]).2.waiting
      (dedupeKey entityType scope item) := by
  by_cases hkey : dedupeKey entityType scope item ∈ a.receivePipeline.recentKeys
  · refine awaited_enqueue hkept hnone ?_ (Or.inr hkey)
    intro i hi
    rw [List.mem_singleton] at hi
    exact hi ▸ hbuilt
  · refine ⟨{ entityType := entityType, scope := scope, item := item }, rfl, hbuilt,
      Or.inr ?_⟩
    rw [enqueue_waiting, acceptedEntries_cons, if_neg hkey]
    exact List.mem_append_right _ List.mem_cons_self

/-- The queue part of a call keeps everything. -/
theorem Kept.enqueueAndDrain (hkept : Kept codec log a) (hnone : a.task.entries = [])
    (hbuilt : ∀ item ∈ items, Built codec log
      { entityType := entityType, scope := scope, item := item })
    (hafter : AfterKept codec log a
      (a.receivePipeline.enqueue entityType scope items).2.waiting after) :
    Kept codec log (a.enqueueAndDrain entityType scope items after) := by
  have hgrows : Grows codec log a (a.enqueueAndDrain entityType scope items after) :=
    grows_of_pending (fun _ h => h) (fun _ h => h) rfl
  have hpipeline : (a.enqueueAndDrain entityType scope items after).receivePipeline =
      { (a.receivePipeline.enqueue entityType scope items).2 with queue := [] } := by
    unfold SyncActor.enqueueAndDrain
    dsimp only [SyncActor.goto]
    rw [drainBatches_eq]
  have htask : (a.enqueueAndDrain entityType scope items after).task =
      .apply ((a.receivePipeline.enqueue entityType scope items).2.queue.map
        (fun batch => (batch, batch.items))) after := by
    unfold SyncActor.enqueueAndDrain
    dsimp only [SyncActor.goto]
    rw [drainBatches_eq]
  have hopen : (a.enqueueAndDrain entityType scope items after).task.entries =
      (a.receivePipeline.enqueue entityType scope items).2.waiting := by
    rw [htask]
    exact openEntries_start _
  refine
    { store := hkept.store.grow hgrows rfl
      cursors := hkept.cursors.grow hgrows rfl
      pending := hkept.pending
      pipeline := { keys := ?_, batches := ?_ }
      task := ?_ }
  · intro key hkey
    rw [hpipeline] at hkey ⊢
    rw [hopen]
    exact (awaited_enqueue hkept hnone hbuilt (Or.inl hkey)).grow hgrows
      (fun e he => Or.inr (List.mem_append_right _ he))
  · rw [hpipeline]
    exact fun b hb => absurd hb List.not_mem_nil
  · rw [htask]
    have hqueue := congrArg ReceivePipeline.queue hpipeline
    refine ⟨hqueue, ?_, ?_⟩
    · intro b hb
      obtain ⟨batch, hbatch, rfl⟩ := List.mem_map.mp hb
      refine ⟨fun item hitem => hitem, fun e he => ?_⟩
      rcases mem_enqueue_queue items hbatch with hold | ⟨rfl, rfl, hitems⟩
      · exact hkept.pipeline.batches batch hold e he
      · obtain ⟨item, hitem, rfl⟩ := List.mem_map.mp he
        exact hbuilt item (hitems item hitem)
    · refine hafter.grow hgrows (fun e he => Or.inr ?_)
      rwa [openEntries_start]

end Drain

section Mutations

variable {codec : Codec} {log : ∀ t, ServerLog t} {a : SyncActor}
variable {m m' : PendingTimelineMutation}

/-- Under one key there is one mutation. -/
theorem Truthful.of_key (h : Truthful log m) (h' : Truthful log m') (hkey : m'.key = m.key) :
    m'.timeline = m.timeline ∧ m'.pts = m.pts ∧ m'.canonicalEvent = m.canonicalEvent := by
  simp only [PendingTimelineMutation.key, Prod.mk.injEq] at hkey
  obtain ⟨htype, hchannel, htarget, hevent⟩ := hkey
  have hline : m'.timeline = m.timeline := by
    simp only [PendingTimelineMutation.timeline, Timeline.mk.injEq]
    exact ⟨hchannel, htype⟩
  obtain ⟨c, hc, hpts, hcanonical, hctarget, heventId⟩ := h
  obtain ⟨c', hc', hpts', hcanonical', hctarget', heventId'⟩ := h'
  rw [hline] at hc'
  rw [htarget] at hctarget'
  rw [hevent] at heventId'
  have heq := (log m.timeline).events c' hc' c hc m.eventId m.targetServerMessageId
    heventId' heventId hctarget' hctarget
  obtain rfl := (log m.timeline).eq_of_pts hc' hc heq
  exact ⟨hline, hpts'.symm.trans hpts, hcanonical'.symm.trans hcanonical⟩

variable (codec) in
/-- The replay of a mutation is the change of its commit. -/
theorem Truthful.sameMutation_replay (h : Truthful log m) {event : CanonicalTimelineEvent}
    (hevent : m.canonicalEvent = some event) :
    ∃ c ∈ (log m.timeline).commits, c.pts = m.pts ∧ ¬ IsMessage codec c ∧
      SameMutation (commitEntry codec m.timeline (replayCommit m event))
        (commitEntry codec m.timeline c) := by
  obtain ⟨c, hc, hpts, hcanonical, htarget, -⟩ := h
  have hne : ¬ IsMessage codec c := not_isMessage_of_target htarget
  rw [hevent] at hcanonical
  have hne' : ¬ IsMessage codec (replayCommit m event) :=
    fun hmessage => hne ((isMessage_congr rfl hcanonical).mp hmessage)
  obtain ⟨hid, htype⟩ := (log m.timeline).channel c hc
  have hknown : m.channelType < 256 := ((log m.timeline).known c hc).2.2
  refine ⟨c, hc, hpts, hne, sameMutation_of_event hne' rfl hcanonical hpts.symm
    hid.symm ?_⟩
  rw [htype]
  exact if_pos hknown

variable (codec) in
theorem Truthful.built_replay (h : Truthful log m) {event : CanonicalTimelineEvent}
    (hevent : m.canonicalEvent = some event) :
    Built codec log (commitEntry codec m.timeline (replayCommit m event)) := by
  obtain ⟨c, hc, -, hne, hsame⟩ := h.sameMutation_replay codec hevent
  have hne' : ¬ IsMessage codec (replayCommit m event) :=
    fun hmessage => hne (hsame.entityType.symm.trans hmessage)
  exact built_entry (fun hmessage => absurd hmessage hne')
    (fun _ => ⟨m.timeline, c, hc, hsame⟩)

/-- A mutation that is put aside covers its commit, and uncovers none. -/
theorem grows_put (hpending : ∀ m' ∈ a.pendingMutations, Truthful log m')
    (hm : Truthful log m) (task : Task) :
    Grows codec log a
      ({ a with
        pendingMutations := putPendingTimelineMutation a.pendingMutations m }.goto
        task) where
  stores _ h := h
  turns _ h := h
  held t c _ hheld := by
    obtain ⟨m', hm', hid, htype, hpts, hevent⟩ := hheld
    refine Or.inr ?_
    by_cases hkey : m'.key = m.key
    · obtain ⟨hline, hpts', hevent'⟩ := hm.of_key (hpending m' hm') hkey
      simp only [PendingTimelineMutation.timeline, Timeline.mk.injEq] at hline
      exact ⟨m, List.mem_cons_self, hline.1 ▸ hid, hline.2 ▸ htype, hpts' ▸ hpts,
        hevent' ▸ hevent⟩
    · refine ⟨m', List.mem_cons_of_mem _ (List.mem_filter.mpr ⟨hm', ?_⟩), hid, htype,
        hpts, hevent⟩
      simpa using hkey

/-- A mutation is deleted when its commit has been applied. -/
theorem grows_delete (hpending : ∀ m' ∈ a.pendingMutations, Truthful log m')
    (hm : Truthful log m) (task : Task)
    (happlied : ∀ c ∈ (log m.timeline).commits, c.pts = m.pts →
      Applied codec a m.timeline c) :
    Grows codec log a
      ({ a with
        pendingMutations := deletePendingTimelineMutation a.pendingMutations m }.goto
        task) where
  stores _ h := h
  turns _ h := h
  held t c hc hheld := by
    obtain ⟨m', hm', hid, htype, hpts, hevent⟩ := hheld
    by_cases hkey : m'.key = m.key
    · obtain ⟨hline, hpts', -⟩ := hm.of_key (hpending m' hm') hkey
      have ht : m.timeline = t := by
        rw [← hline]
        simp only [PendingTimelineMutation.timeline, hid, htype]
      subst ht
      refine Or.inl (Applied.grow ?_ ?_ (happlied c hc (hpts.symm.trans hpts')))
      · exact fun _ h => h
      · exact fun _ h => h
    · refine Or.inr ⟨m', List.mem_filter.mpr ⟨hm', ?_⟩, hid, htype, hpts, hevent⟩
      simpa using hkey

theorem mem_put (h : m' ∈ putPendingTimelineMutation a.pendingMutations m) :
    m' = m ∨ m' ∈ a.pendingMutations :=
  (List.mem_cons.mp h).imp_right (fun hold => (List.mem_filter.mp hold).1)

/-- What is put aside is a mutation with an event id. -/
theorem deferred {f : Faults} {c : ServerCommit} {pending : List PendingTimelineMutation}
    (h : a.deferCanonicalMutationIfTargetMissing f c = .ok (some pending)) :
    ∃ target eventId, mutationTarget c = some target ∧ c.eventId = some eventId ∧
      pending = putPendingTimelineMutation a.pendingMutations
        { channelId := c.channelId
          channelType := c.channelType
          targetServerMessageId := target
          eventId := eventId
          pts := c.pts
          canonicalEvent := c.canonicalEvent } := by
  unfold SyncActor.deferCanonicalMutationIfTargetMissing at h
  split at h
  · cases h
  · rename_i target htarget
    split at h
    · cases h
    · cases h
    · split at h
      · cases h
      · rename_i eventId heventId
        split at h
        · cases h
        · cases h
          exact ⟨target, eventId, htarget, heventId, rfl⟩

end Mutations

section Pages

variable {codec : Codec} {log : ∀ t, ServerLog t} {a : SyncActor} {page : Page}
variable {c : ServerCommit} {rest : List ServerCommit}

theorem PageKept.mem_log (h : PageKept codec log a page) (hc : c ∈ page.commits) :
    c ∈ (log page.timeline).commits := by
  obtain ⟨n, hn⟩ := h.commits
  rw [hn] at hc
  exact (LogPages.mem_behind.mp (List.mem_of_mem_take hc)).1

theorem PageKept.head_mem (h : PageKept codec log a page) (hrest : page.rest = c :: rest) :
    c ∈ (log page.timeline).commits := by
  obtain ⟨front, hsplit, -⟩ := h.front
  refine h.mem_log ?_
  rw [hsplit, hrest]
  exact List.mem_append_right _ List.mem_cons_self

/-- The page behind a commit that is covered. -/
theorem PageKept.behind (h : PageKept codec log a page) (hrest : page.rest = c :: rest)
    (hc : Covered codec a page.timeline c) :
    PageKept codec log a { page with rest := page.rest.tail } where
  commits := h.commits
  low := h.low
  front := by
    obtain ⟨front, hsplit, hcovered⟩ := h.front
    refine ⟨front ++ [c], ?_, ?_⟩
    · rw [hsplit, hrest]
      simp
    · intro c' hc'
      rcases List.mem_append.mp hc' with hfront | hlast
      · exact hcovered c' hfront
      · rw [List.mem_singleton] at hlast
        exact hlast ▸ hc

/-- Up to the commit at the head of a page everything else is covered. -/
theorem PageKept.covered_upto (h : PageKept codec log a page)
    (hrest : page.rest = c :: rest) {c' : ServerCommit}
    (hc' : c' ∈ (log page.timeline).commits) (hle : c'.pts ≤ c.pts) :
    Covered codec a page.timeline c' ∨ c' = c := by
  by_cases hlow : c'.pts ≤ page.lastPts
  · exact Or.inl (h.low c' hc' hlow)
  · obtain ⟨n, hn⟩ := h.commits
    obtain ⟨front, hsplit, hcovered⟩ := h.front
    rw [hrest] at hsplit
    have hincreasing := (log page.timeline).increasing.behind page.lastPts
    have hpage : LogPages.Increasing ServerCommit.pts (front ++ c :: rest) := by
      rw [← hsplit, hn]
      exact hincreasing.sublist (List.take_sublist _ _)
    have hc : c ∈ (LogPages.behind ServerCommit.pts (log page.timeline).commits
        page.lastPts).take n := by
      rw [← hn, hsplit]
      exact List.mem_append_right _ List.mem_cons_self
    have hmem := hincreasing.mem_take hc
      (LogPages.mem_behind.mpr ⟨hc', Nat.lt_of_not_le hlow⟩) hle
    rw [← hn, hsplit] at hmem
    exact (hpage.mem_front hmem hle).imp_left (hcovered c')

/-- A page that is done leaves nothing up to the position behind it. -/
theorem PageKept.covered_next (h : PageKept codec log a page) (hrest : page.rest = [])
    {c' : ServerCommit} (hc' : c' ∈ (log page.timeline).commits)
    (hle : c'.pts ≤ LogPages.nextPosition ServerCommit.pts page.lastPts page.commits) :
    Covered codec a page.timeline c' := by
  obtain ⟨n, hn⟩ := h.commits
  obtain ⟨front, hsplit, hcovered⟩ := h.front
  rw [hrest, List.append_nil] at hsplit
  rw [hn] at hle
  rcases (log page.timeline).increasing.mem_page hc' hle with hlow | hmem
  · exact h.low c' hc' hlow
  · rw [← hn, hsplit] at hmem
    exact hcovered c' hmem

end Pages

end Difference
end PrivchatSdk
