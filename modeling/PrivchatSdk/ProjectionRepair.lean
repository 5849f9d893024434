import Mathlib.Data.Set.Card
import PrivchatSdk.MessageItems
import PrivchatSdk.SendTime
import PrivchatSdk.TimelineCache

/-!
# Repairing a damaged projection

A read judges the messages it returns: media without metadata, a missing pts and
a send time before 1973 are damage.  It queues a repair for each, and a tick asks
the server for the message and upserts the answer like any other history item.

* `repairMessageProjection_damaged_iff`: when the repaired row is still damaged;
* `requests_le`: how many repairs are requested in a run whose requests all heal;
* `missing_requested_again`: what is missing at the server is queued again.
-/

namespace PrivchatSdk

open StatementExec RelTable Receive Session

section Repair

/-- The request for a message with its surroundings. -/
structure MessageHistoryAroundRequest where
  channelId : Nat
  messageId : Nat
  beforeLimit : Option Nat
  afterLimit : Option Nat
  deriving DecidableEq, Repr

structure MessageHistoryAroundResponse where
  beforeMessages : List MessageHistoryItem
  anchorMessage : MessageHistoryItem
  afterMessages : List MessageHistoryItem

/-- The server, as far as it is asked for surroundings. -/
abbrev AroundServer : Type :=
  MessageHistoryAroundRequest → Except StoreError MessageHistoryAroundResponse

/-- The server refuses as it likes, and the way to it may be interrupted. -/
def AroundServer.call
    (server : AroundServer) (req : MessageHistoryAroundRequest) :
    StoreM MessageHistoryAroundResponse := do
  let answer ← query "message_history/around" (fun _ => server req)
  match answer with
  | .ok resp => pure resp
  | .error e => Exec.fail e

/-- The server answers a repair with the message alone, as it is asked to. -/
def AroundServer.Answers
    (server : AroundServer) (key : RepairKey) (item : MessageHistoryItem) : Prop :=
  server
      { channelId := key.channelId
        messageId := key.serverMessageId
        beforeLimit := some 0
        afterLimit := some 0 } =
    .ok
      { beforeMessages := []
        anchorMessage := item
        afterMessages := [] }

variable (codec : Codec) (currentUid : Option Nat)

/-- `store_history_items`: the first item that failed is the error. -/
def Codec.storeHistoryItems
    (items : List MessageHistoryItem) (channelType : Int) : StoreM (List Nat) := do
  let results ← batchUpsertRemoteMessages currentUid
    (items.map (fun item => codec.historyItemToUpsertInput item channelType))
  match results.mapM (fun result => result.map (fun stored => stored.messageId)) with
  | .ok ids => pure ids
  | .error e => Exec.fail e

/-- `fetch_and_store_messages_around`. -/
def Codec.fetchAndStoreMessagesAround
    (server : AroundServer) (channelId : Nat) (channelType : Int)
    (messageId : Nat) (beforeLimit afterLimit : Option Nat) :
    StoreM MessageHistoryAroundResponse := do
  let resp ← server.call
    { channelId := channelId
      messageId := messageId
      beforeLimit := beforeLimit
      afterLimit := afterLimit }
  let _ ← codec.storeHistoryItems currentUid
    (resp.beforeMessages ++ resp.anchorMessage :: resp.afterMessages)
    (if channelType = 0 then 1 else channelType)
  pure resp

/-- The channel type that a repair works with. -/
def Session.RepairKey.normalizedType (key : RepairKey) : Int :=
  if key.channelType = 0 then 1 else key.channelType

/-- `repair_message_projection`. -/
def Codec.repairMessageProjection
    (server : AroundServer) (key : RepairKey) : StoreM (Option Nat) := do
  let resp ← codec.fetchAndStoreMessagesAround currentUid server key.channelId
    key.normalizedType key.serverMessageId (some 0) (some 0)
  if resp.anchorMessage.messageId ≠ key.serverMessageId then
    pure none
  else
    getMessageIdByServerMessageId key.channelId key.normalizedType
      key.serverMessageId

/-- `has_metadata`. -/
def Codec.hasMetadata (extra : String) : Bool :=
  if extra.isEmpty then false else (codec.extraMetadata extra).isSome

/-- An image or a video. -/
def isMediaType (messageType : Int) : Bool :=
  messageType == ContentMessageType.image.toI32 ||
    messageType == ContentMessageType.video.toI32

/-- What the read path takes for damage. -/
def Codec.projectionDamaged (m : StoredMessage) : Bool :=
  let mediaWithoutMetadata := isMediaType m.messageType && !codec.hasMetadata m.extra
  let missingPts := decide (m.pts.getD 0 ≤ 0)
  let badTimestamp := decide (0 < m.createdAt) && decide (m.createdAt < minPlausibleMs)
  m.serverMessageId.getD 0 != 0 &&
    (mediaWithoutMetadata || missingPts || badTimestamp)

/-- The key under which a message of a channel is repaired. -/
def repairKey (key : ChannelCacheKey) (m : StoredMessage) : RepairKey where
  channelType := key.channelType
  channelId := key.channelId
  serverMessageId := m.serverMessageId.getD 0

/-- The loop of a read over the messages it returns. -/
def Codec.detectDamage
    (now : Nat) (key : ChannelCacheKey) (messages : List StoredMessage)
    (m : Memory) : Memory :=
  messages.foldl (fun m message =>
    if codec.projectionDamaged message then
      m.enqueueProjectionRepair now (repairKey key message)
    else
      m) m

/-- How the loop of the repairs takes an answer. -/
def repairOutcome : Except StoreError (Option Nat) → RepairOutcome
  | .ok (some messageId) => .repaired messageId
  | .ok none => .missing
  | .error _ => .failed

end Repair

section Sessions

/-- A repair that was requested, with the store at that time. -/
structure RepairRequest where
  store : Store
  env : Env
  key : RepairKey

/-- What reads and repair ticks work on, and the repairs requested so far. -/
structure RepairState where
  store : Store
  memory : Memory
  requests : List RepairRequest

/-- A session with its server and its settings. -/
structure RepairSession where
  codec : Codec
  currentUid : Option Nat
  cacheConfig : Option MessageCachePolicyConfig
  server : AroundServer

inductive RepairAction where
  | read (now : Nat) (key : ChannelCacheKey) (limit offset : Nat)
  | tick (now : Nat) (env : Env)

variable (session : RepairSession)

/-- One repair of a tick. -/
def RepairSession.request
    (env : Env) (st : Store × List RepairRequest) (key : RepairKey) :
    RepairOutcome × (Store × List RepairRequest) :=
  let (res, store) := session.codec.repairMessageProjection session.currentUid
    session.server key env st.1
  (repairOutcome res,
    (store, st.2 ++ [{ store := st.1, env := env, key := key }]))

/-- `Command::ListMessages`, as far as repairs are concerned, and the repair tick. -/
def RepairSession.step (w : RepairState) : RepairAction → RepairState
  | .read now key limit offset =>
      let (snapshot, memory) := w.memory.queryTimelineSnapshot session.cacheConfig
        w.store.listMessages key limit offset
      { w with memory :=
          session.codec.detectDamage now key snapshot.messages memory }
  | .tick now env =>
      let (_, (store, requests), memory) := w.memory.drainProjectionRepairs
        (session.request env) now repairBatchLimit (w.store, w.requests)
      { store := store
        memory := memory
        requests := requests }

end Sessions

section Healing

/-- The item says all that the projection of a message needs. -/
structure Codec.Complete
    (codec : Codec) (key : RepairKey) (item : MessageHistoryItem) : Prop where
  messageId : item.messageId = key.serverMessageId
  channelId : item.channelId = key.channelId
  positive : 0 < item.messageId
  numbered : 0 < item.messageSeq.getD 0
  sent : minPlausibleMs ≤ normalizeSentAtMs (clampI64 item.timestamp)
  metadata : isMediaType (wireMessageTypeToI32 item.messageType) = true →
    codec.hasMetadata
      (codec.buildExtraEnvelope item.content (item.metadata.map .obj)) = true

/--
The guards of the upsert let the item repair the row: it is no older than the row,
and a wrong send time is not taken for one in milliseconds.
-/
structure MessageHistoryItem.Heals
    (item : MessageHistoryItem) (row : MessageRow) : Prop where
  current : row.orderSeq < item.messageSeq.getD 0 ∨
    row.orderSeq = item.messageSeq.getD 0 ∧ row.pts ≤ item.messageSeq.getD 0
  sentAt : ¬ (row.createdAtPrecision = .milliseconds ∧ 0 < row.createdAt ∧
    row.createdAt < minPlausibleMs)

variable {codec : Codec} {currentUid : Option Nat} {key : RepairKey}
variable {item : MessageHistoryItem} {row : MessageRow}

theorem stale_history_iff (channelType : Int) :
    (codec.historyItemToUpsertInput item channelType).stale row = false ↔
      row.orderSeq < item.messageSeq.getD 0 ∨
        row.orderSeq = item.messageSeq.getD 0 ∧
          row.pts ≤ item.messageSeq.getD 0 := by
  have horder : (codec.historyItemToUpsertInput item channelType).orderSeq =
      item.messageSeq.getD 0 := rfl
  have hpts : (codec.historyItemToUpsertInput item channelType).pts =
      item.messageSeq.getD 0 := rfl
  simp only [UpsertRemoteMessageInput.stale, horder, hpts, Bool.or_eq_false_iff,
    Bool.and_eq_false_iff, decide_eq_false_iff_not, beq_eq_false_iff_ne]
  omega

/-- A history item names no message by a local id. -/
theorem byInputLocalId_history (s : Store) (channelType : Int) :
    s.byInputLocalId currentUid
      (codec.historyItemToUpsertInput item channelType) = none := by
  have hlocal : (codec.historyItemToUpsertInput item channelType).localMessageId =
      0 := rfl
  simp [Store.byInputLocalId, UpsertRemoteMessageInput.hasLocalIdentity, hlocal]

/-- What the item is upserted as, where damage is looked for. -/
theorem Codec.Complete.input
    (h : codec.Complete key item) (now : Int) :
    let input := codec.historyItemToUpsertInput item key.normalizedType
    input.serverMessageId = key.serverMessageId ∧
      input.channelId = key.channelId ∧
      input.channelType = key.normalizedType ∧
      0 < input.pts ∧
      minPlausibleMs ≤ sentAtMs input.timestamp now ∧
      (isMediaType input.messageType = true →
        codec.hasMetadata input.extra = true) := by
  have hsent := h.sent
  refine ⟨h.messageId, h.channelId, ?_, h.numbered, ?_, h.metadata⟩
  · have htype : (codec.historyItemToUpsertInput item
        key.normalizedType).channelType =
          if (if key.normalizedType = 0 then 1 else key.normalizedType) = 0 then 1
          else if key.normalizedType = 0 then 1 else key.normalizedType := rfl
    rw [htype]
    unfold RepairKey.normalizedType
    split_ifs
    all_goals omega
  · have htime : (codec.historyItemToUpsertInput item
        key.normalizedType).timestamp =
          normalizeSentAtMs (clampI64 item.timestamp) := rfl
    rw [htime, sentAtMs, if_pos (by unfold minPlausibleMs at hsent; exact hsent)]
    exact hsent

/-- The damage of a message that has what a repair brings is its send time. -/
theorem projectionDamaged_supplied_iff
    {m : StoredMessage} (hsid : m.serverMessageId.getD 0 ≠ 0)
    (hpts : 0 < m.pts.getD 0)
    (hmedia : isMediaType m.messageType = true → codec.hasMetadata m.extra = true) :
    codec.projectionDamaged m = true ↔
      0 < m.createdAt ∧ m.createdAt < minPlausibleMs := by
  have hpts' : ¬ m.pts.getD 0 ≤ 0 := by omega
  have hmedia' : (isMediaType m.messageType && !codec.hasMetadata m.extra) =
      false := by
    cases htype : isMediaType m.messageType with
    | false =>
        rfl
    | true =>
        rw [hmedia htype]
        rfl
  simp [Codec.projectionDamaged, hsid, hpts', hmedia']

/-- The row that a complete item is inserted as is not damaged. -/
theorem Codec.Complete.toRow_undamaged
    (h : codec.Complete key item) (now : Int) (id : Nat)
    (extra : Option MessageExtraRow) :
    codec.projectionDamaged (((codec.historyItemToUpsertInput item
      key.normalizedType).toRow now id).toStored extra) = false := by
  obtain ⟨hsid, -, -, hpts, hsent, hmedia⟩ := h.input now
  have hpositive := h.positive
  have hmessage := h.messageId
  by_contra hdamaged
  rw [Bool.not_eq_false, projectionDamaged_supplied_iff
    (by simp [UpsertRemoteMessageInput.toRow, MessageRow.toStored, hsid]; omega)
    (by simp [UpsertRemoteMessageInput.toRow, MessageRow.toStored, hpts])
    hmedia] at hdamaged
  have hcreated := hdamaged.2
  have heq : (((codec.historyItemToUpsertInput item key.normalizedType).toRow now
      id).toStored extra).createdAt = sentAtMs (codec.historyItemToUpsertInput item
        key.normalizedType).timestamp now := rfl
  rw [heq] at hcreated
  omega

/-- An overwritten row is damaged by a send time that was kept, and by no more. -/
theorem Codec.Complete.overwrite_damaged_iff
    (h : codec.Complete key item) (now : Int) (extra : Option MessageExtraRow) :
    codec.projectionDamaged (((codec.historyItemToUpsertInput item
        key.normalizedType).overwrite now row).toStored extra) = true ↔
      row.createdAtPrecision = .milliseconds ∧ 0 < row.createdAt ∧
        row.createdAt < minPlausibleMs := by
  obtain ⟨hsid, -, -, hpts, hsent, hmedia⟩ := h.input now
  have hpositive := h.positive
  have hmessage := h.messageId
  rw [projectionDamaged_supplied_iff
    (by simp [UpsertRemoteMessageInput.overwrite, MessageRow.toStored, hsid]; omega)
    (by simp [UpsertRemoteMessageInput.overwrite, MessageRow.toStored, hpts])
    hmedia]
  have hprecise : (codec.historyItemToUpsertInput item
      key.normalizedType).timestampPrecision = .milliseconds := rfl
  simp only [UpsertRemoteMessageInput.overwrite, MessageRow.toStored, hprecise,
    true_and]
  split_ifs with hnone hseconds
  · constructor
    · intro hbad
      omega
    · intro hbad
      omega
  · constructor
    · intro hbad
      omega
    · rintro ⟨hms, -⟩
      rw [hseconds] at hms
      cases hms
  · have hms : row.createdAtPrecision = .milliseconds := by
      cases hp : row.createdAtPrecision with
      | seconds =>
          exact absurd hp hseconds
      | milliseconds =>
          rfl
    exact ⟨fun hbad => ⟨hms, hbad⟩, fun hbad => hbad.2⟩

end Healing

section Requests

variable {codec : Codec} {currentUid : Option Nat} {key : RepairKey}
variable {item : MessageHistoryItem} {row : MessageRow} {server : AroundServer}

/-- One history item is stored by one upsert. -/
theorem storeHistoryItems_single (channelType : Int) (env : Env) (s : Store) :
    codec.storeHistoryItems currentUid [item] channelType env s =
      match upsertRemoteMessageWithResult currentUid
        (codec.historyItemToUpsertInput item channelType) env s with
      | (.ok r, s') => (.ok [r.messageId], s')
      | (.error e, s') => (.error e, s') := by
  unfold Codec.storeHistoryItems
  rw [Exec.bind_run, batchUpsert_eq_upsertEach, List.map_singleton, upsertEach,
    Exec.attempt_bind]
  cases upsertRemoteMessageWithResult currentUid
      (codec.historyItemToUpsertInput item channelType) env s with
  | mk res s' =>
  cases res with
  | ok r =>
      rfl
  | error e =>
      rfl

/-- A repair that is answered with the message upserts it and looks it up. -/
theorem repairMessageProjection_answered
    (hanswer : server.Answers key item)
    (hmessage : item.messageId = key.serverMessageId) {env : Env} (s : Store)
    (hcall : env.fault "message_history/around" = false) :
    codec.repairMessageProjection currentUid server key env s =
      match upsertRemoteMessageWithResult currentUid
        (codec.historyItemToUpsertInput item key.normalizedType) env s with
      | (.ok _, s') => getMessageIdByServerMessageId key.channelId
          key.normalizedType key.serverMessageId env s'
      | (.error e, s') => (.error e, s') := by
  have hnormal : (if key.normalizedType = 0 then 1 else key.normalizedType) =
      key.normalizedType := by
    unfold RepairKey.normalizedType
    split_ifs
    all_goals omega
  have hserver : server.call
      { channelId := key.channelId
        messageId := key.serverMessageId
        beforeLimit := some 0
        afterLimit := some 0 } env s =
      (.ok
        { beforeMessages := []
          anchorMessage := item
          afterMessages := [] }, s) := by
    unfold AroundServer.call
    rw [Exec.bind_run]
    have hquery : query "message_history/around" (fun _ => server
        { channelId := key.channelId
          messageId := key.serverMessageId
          beforeLimit := some 0
          afterLimit := some 0 }) env s = (.ok (.ok
            { beforeMessages := []
              anchorMessage := item
              afterMessages := [] }), s) := query_ok.mpr ⟨hcall, hanswer, rfl⟩
    rw [hquery]
    rfl
  unfold Codec.repairMessageProjection Codec.fetchAndStoreMessagesAround
  rw [Exec.bind_run, Exec.bind_run, hserver]
  dsimp only
  rw [hnormal, List.nil_append, Exec.bind_run, storeHistoryItems_single]
  cases upsertRemoteMessageWithResult currentUid
      (codec.historyItemToUpsertInput item key.normalizedType) env s with
  | mk res s' =>
  cases res with
  | ok r =>
      simp [Exec.pure_run, hmessage]
  | error e =>
      rfl

/-- Without a connection there is no repair. -/
theorem repairMessageProjection_fault
    {env : Env} {s s' : Store} {res : Option Nat}
    (hrun : codec.repairMessageProjection currentUid server key env s =
      (.ok res, s')) :
    env.fault "message_history/around" = false := by
  unfold Codec.repairMessageProjection Codec.fetchAndStoreMessagesAround
    AroundServer.call at hrun
  obtain ⟨_, _, hrun, -⟩ := Exec.bind_ok.mp hrun
  obtain ⟨_, _, hrun, -⟩ := Exec.bind_ok.mp hrun
  obtain ⟨_, _, hrun, -⟩ := Exec.bind_ok.mp hrun
  exact (query_ok.mp hrun).1

/-- The upsert of a history item leaves the row as it is or overwrites it. -/
theorem upserted_row
    {input : UpsertRemoteMessageInput} {env : Env} {s s' : Store}
    {r : UpsertRemoteMessageResult} {row' : MessageRow}
    (hrow : s.byServerId input.serverMessageId = some row)
    (hlocal : s.byInputLocalId currentUid input = none)
    (hrun : upsertRemoteMessageWithResult currentUid input env s = (.ok r, s'))
    (hmem : row' ∈ s'.message.rows)
    (hsid : row'.serverMessageId = some input.serverMessageId) :
    input.stale row = true ∧ row' = row ∨
      input.stale row = false ∧ row' = input.overwrite env.now row := by
  cases upsert_outcome hrun with
  | stale old hpos hold hstale =>
      obtain hold | ⟨hnone, -⟩ := hold
      · rw [hrow] at hold
        cases hold
        have hsame := (s.byServerId_eq_some_iff hpos row').mpr ⟨hmem, hsid⟩
        rw [hrow] at hsame
        cases hsame
        exact Or.inl ⟨hstale, rfl⟩
      · rw [hrow] at hnone
        cases hnone
  | written base t old hpos htarget ht =>
      rw [Store.takeRevoke_message] at hmem
      cases htarget with
      | byServerId _ hold hfresh =>
          rw [hrow] at hold
          cases hold
          refine Or.inr ⟨hfresh, ?_⟩
          obtain ⟨hrowMem, -⟩ := (s.byServerId_eq_some_iff hpos row).mp hrow
          rcases mem_of_update ht hmem with ⟨r₀, hr₀, hid, rfl⟩ | ⟨hr', hne⟩
          · have h₀ := (s.message.byRowid_eq_some_iff row.id r₀).mpr ⟨hr₀, hid⟩
            have h₁ := (s.message.byRowid_eq_some_iff row.id row).mpr ⟨hrowMem, rfl⟩
            rw [h₀] at h₁
            cases h₁
            rfl
          · have hsame := (s.byServerId_eq_some_iff hpos row').mpr ⟨hr', hsid⟩
            rw [hrow] at hsame
            cases hsame
            exact absurd rfl hne
      | byLocalId _ hnone =>
          rw [hrow] at hnone
          cases hnone
      | merge _ _ _ _ hkeep =>
          rw [hlocal] at hkeep
          cases hkeep
  | inserted _ _ hnone =>
      rw [hrow] at hnone
      cases hnone

/--
After a repair that returned the message, its row is still damaged exactly if the
item was older than the row or did not replace a wrong send time.
-/
theorem repairMessageProjection_damaged_iff
    {env : Env} {s s' : Store} {id : Nat} {extra : Option MessageExtraRow}
    (hrow : s.byServerId key.serverMessageId = some row)
    (hdamaged : codec.projectionDamaged (row.toStored extra) = true)
    (hanswer : server.Answers key item) (hcomplete : codec.Complete key item)
    (hrun : codec.repairMessageProjection currentUid server key env s =
      (.ok (some id), s')) :
    ∃ m, s'.storedMessage id = some m ∧
      m.serverMessageId = some key.serverMessageId ∧
      (codec.projectionDamaged m = false ↔ item.Heals row) := by
  rw [repairMessageProjection_answered hanswer hcomplete.messageId s
    (repairMessageProjection_fault hrun)] at hrun
  cases hupsert : upsertRemoteMessageWithResult currentUid
      (codec.historyItemToUpsertInput item key.normalizedType) env s with
  | mk res s₁ =>
  rw [hupsert] at hrun
  cases res with
  | error e =>
      cases hrun
  | ok r =>
      obtain ⟨-, hfind, rfl⟩ := query_ok.mp hrun
      obtain ⟨row', hfound, rfl⟩ := Option.map_eq_some_iff.mp hfind
      have hmem := List.mem_of_find?_eq_some hfound
      have hsid : row'.serverMessageId = some key.serverMessageId := by
        have hcond := List.find?_some hfound
        simp only [Bool.and_eq_true, beq_iff_eq] at hcond
        exact hcond.1.1
      have hstored : s₁.storedMessage row'.id =
          some (row'.toStored (s₁.messageExtra.lookup row'.id)) := by
        unfold Store.storedMessage
        rw [(s₁.message.byRowid_eq_some_iff row'.id row').mpr ⟨hmem, rfl⟩]
        rfl
      refine ⟨_, hstored, hsid, ?_⟩
      obtain ⟨hinput, -⟩ := hcomplete.input env.now
      rw [← hinput] at hrow hsid
      rcases upserted_row hrow (byInputLocalId_history s _) hupsert hmem hsid with
        ⟨hstale, rfl⟩ | ⟨hfresh, rfl⟩
      · constructor
        · intro hundamaged
          rw [show codec.projectionDamaged (row'.toStored
            (s₁.messageExtra.lookup row'.id)) =
              codec.projectionDamaged (row'.toStored extra) from rfl,
            hdamaged] at hundamaged
          cases hundamaged
        · intro hheals
          rw [(stale_history_iff key.normalizedType).mpr hheals.current] at hstale
          cases hstale
      · have hcurrent := (stale_history_iff key.normalizedType).mp hfresh
        rw [← Bool.not_eq_true, hcomplete.overwrite_damaged_iff]
        exact ⟨fun hsent => ⟨hcurrent, hsent⟩, fun hheals => hheals.sentAt⟩

/-- A request finds everything that a repair takes. -/
def RepairSession.Heals (session : RepairSession) (q : RepairRequest) : Prop :=
  (∃ now, q.env = .calm now) ∧
    ∃ item, session.server.Answers q.key item ∧ session.codec.Complete q.key item ∧
      ∀ row, q.store.byServerId q.key.serverMessageId = some row → item.Heals row

/-- The upsert of a healing item ends with one sound row and the other rows. -/
theorem upsert_heals
    (hcomplete : codec.Complete key item) {env : Env} {s s' : Store}
    {r : UpsertRemoteMessageResult}
    (hheals : ∀ row, s.byServerId key.serverMessageId = some row → item.Heals row)
    (hrun : upsertRemoteMessageWithResult currentUid
      (codec.historyItemToUpsertInput item key.normalizedType) env s =
        (.ok r, s')) :
    ∃ row' ∈ s'.message.rows, row'.serverMessageId = some key.serverMessageId ∧
      row'.channelId = key.channelId ∧ row'.channelType = key.normalizedType ∧
      codec.projectionDamaged (row'.toStored none) = false ∧
      ∀ r ∈ s'.message.rows, r ≠ row' →
        r ∈ s.message.rows ∧ r.serverMessageId ≠ some key.serverMessageId := by
  obtain ⟨hsid, hchannel, htype, -⟩ := hcomplete.input env.now
  rw [← hsid] at hheals ⊢
  have hlocal : s.byInputLocalId currentUid
      (codec.historyItemToUpsertInput item key.normalizedType) = none :=
    byInputLocalId_history s key.normalizedType
  cases upsert_outcome hrun with
  | stale row hpos hrow hstale =>
      obtain hrow | ⟨-, hrow⟩ := hrow
      · rw [(stale_history_iff key.normalizedType).mpr (hheals row hrow).current]
          at hstale
        cases hstale
      · rw [hlocal] at hrow
        cases hrow
  | written base t row hpos htarget ht =>
      rw [Store.takeRevoke_message]
      cases htarget with
      | byServerId _ hrow hfresh =>
          obtain ⟨hmem, -⟩ := (s.byServerId_eq_some_iff hpos row).mp hrow
          have hbyid := (s.message.byRowid_eq_some_iff row.id row).mpr ⟨hmem, rfl⟩
          have hnew : t.byRowid row.id = some
              ((codec.historyItemToUpsertInput item key.normalizedType).overwrite
                env.now row) := by
            rw [byRowid_of_update ht, hbyid]
            simp
          refine ⟨_, ((t.byRowid_eq_some_iff _ _).mp hnew).1, rfl, hchannel, htype,
            ?_, ?_⟩
          · rw [← Bool.not_eq_true, hcomplete.overwrite_damaged_iff]
            exact (hheals row hrow).sentAt
          · intro r hr hne
            rcases mem_of_update ht hr with ⟨r₀, hr₀, hid, rfl⟩ | ⟨hr', hid⟩
            · have h₀ := (s.message.byRowid_eq_some_iff row.id r₀).mpr ⟨hr₀, hid⟩
              rw [hbyid] at h₀
              cases h₀
              exact absurd rfl hne
            · refine ⟨hr', fun hsame => hid ?_⟩
              have hother := (s.byServerId_eq_some_iff hpos r).mpr ⟨hr', hsame⟩
              rw [hrow] at hother
              cases hother
              rfl
      | byLocalId _ _ hrow =>
          rw [hlocal] at hrow
          cases hrow
      | merge _ _ _ _ hkeep =>
          rw [hlocal] at hkeep
          cases hkeep
  | inserted t hpos hnone hnoneLocal ht =>
      rw [Store.takeRevoke_message]
      obtain ⟨-, hrows, -⟩ := Table.rows_of_insert ht
      refine ⟨(codec.historyItemToUpsertInput item key.normalizedType).toRow
        env.now s.message.nextRowid, by simp [hrows], rfl, hchannel, htype,
        hcomplete.toRow_undamaged _ _ none, ?_⟩
      intro r hr hne
      simp only [hrows, List.mem_append, List.mem_singleton] at hr
      rcases hr with hr | rfl
      · exact ⟨hr, (s.byServerId_eq_none_iff _).mp hnone r hr⟩
      · exact absurd rfl hne

/-- A request that finds everything repairs its message and damages no other. -/
theorem RepairSession.Heals.request
    {session : RepairSession} {q : RepairRequest} (h : session.Heals q)
    (requests : List RepairRequest) :
    ∃ id s', session.request q.env (q.store, requests) q.key =
        (.repaired id, (s', requests ++ [q])) ∧
      ∀ r ∈ s'.message.rows,
        session.codec.projectionDamaged (r.toStored none) = true →
          r ∈ q.store.message.rows ∧
            r.serverMessageId ≠ some q.key.serverMessageId := by
  obtain ⟨⟨now, hcalm⟩, item, hanswer, hcomplete, hheals⟩ := h
  have hcall : q.env.fault "message_history/around" = false := by
    rw [hcalm]
    rfl
  have hpos : 0 < (session.codec.historyItemToUpsertInput item
      q.key.normalizedType).serverMessageId := hcomplete.positive
  obtain ⟨r, s', hupsert⟩ := upsert_calm_ok (session.codec.historyItemToUpsertInput
    item q.key.normalizedType) session.currentUid q.store now hpos
  rw [← hcalm] at hupsert
  obtain ⟨row, hmem, hsid, hchannel, htype, hsound, hothers⟩ :=
    upsert_heals hcomplete hheals hupsert
  have hlookup : ∃ found, s'.message.rows.find? (fun r =>
      r.serverMessageId == some q.key.serverMessageId &&
        r.channelId == q.key.channelId &&
        r.channelType == q.key.normalizedType) = some found := by
    cases hfind : s'.message.rows.find? (fun r =>
        r.serverMessageId == some q.key.serverMessageId &&
          r.channelId == q.key.channelId &&
          r.channelType == q.key.normalizedType) with
    | none =>
        have hnone := List.find?_eq_none.mp hfind row hmem
        simp [hsid, hchannel, htype] at hnone
    | some found =>
        exact ⟨found, rfl⟩
  obtain ⟨found, hfound⟩ := hlookup
  have hrun : session.codec.repairMessageProjection session.currentUid
      session.server q.key q.env q.store = (.ok (some found.id), s') := by
    rw [repairMessageProjection_answered hanswer hcomplete.messageId q.store hcall,
      hupsert]
    exact query_ok.mpr ⟨by rw [hcalm]; rfl, by rw [hfound]; rfl, rfl⟩
  refine ⟨found.id, s', ?_, ?_⟩
  · unfold RepairSession.request
    dsimp only
    rw [hrun]
    rfl
  · intro r hr hdamaged
    refine hothers r hr (fun hsame => ?_)
    rw [hsame, hsound] at hdamaged
    cases hdamaged

end Requests

section Runs

variable {session : RepairSession} {s s' : Store} {m m' : Memory} {k : RepairKey}

/-- A read may find the message damaged: its row, or what the cache kept of it. -/
def RepairSession.Damaged
    (session : RepairSession) (s : Store) (m : Memory) (k : RepairKey) : Prop :=
  (∃ r ∈ s.message.rows, r.channelId = k.channelId ∧
      r.channelType = k.channelType ∧
      r.serverMessageId = some k.serverMessageId ∧
      session.codec.projectionDamaged (r.toStored none) = true) ∨
    ∃ entry, m.channelMessageCache
        { channelId := k.channelId, channelType := k.channelType } = some entry ∧
      ∃ message ∈ entry.messages, message.serverMessageId.getD 0 = k.serverMessageId ∧
        session.codec.projectionDamaged message = true

/-- The repairs that are queued, and those that a read may still queue. -/
noncomputable def RepairSession.repairsLeft
    (session : RepairSession) (s : Store) (m : Memory) : Nat :=
  m.repairQueue.length +
    Set.ncard { k | session.Damaged s m k ∧ k ∉ m.repairSeen }

/-- A damaged message has a server id. -/
theorem serverMessageId_of_damaged
    {codec : Codec} {message : StoredMessage}
    (h : codec.projectionDamaged message = true) :
    message.serverMessageId = some (message.serverMessageId.getD 0) := by
  cases hsid : message.serverMessageId with
  | none =>
      simp [Codec.projectionDamaged, hsid] at h
  | some sid =>
      rfl

/-- What damage can be found depends on the store and the cache only. -/
theorem RepairSession.Damaged.congr
    (hcache : m'.channelMessageCache = m.channelMessageCache)
    (h : session.Damaged s m k) : session.Damaged s m' k := by
  unfold RepairSession.Damaged at h ⊢
  rwa [hcache]

theorem cache_enqueueProjectionRepair (now : Nat) :
    (m.enqueueProjectionRepair now k).channelMessageCache =
      m.channelMessageCache := by
  unfold Memory.enqueueProjectionRepair
  split_ifs
  all_goals rfl

/-- Queueing a damaged message moves it from those that may still be queued. -/
theorem repairsLeft_enqueue
    (now : Nat) (hfinite : Set.Finite { k | session.Damaged s m k })
    (hdamaged : session.Damaged s m k) :
    session.repairsLeft s (m.enqueueProjectionRepair now k) ≤
      session.repairsLeft s m := by
  unfold Memory.enqueueProjectionRepair
  split_ifs with hbackoff hseen hfull
  · exact Nat.le_refl _
  · exact Nat.le_refl _
  · exact Nat.le_refl _
  · have hsub : { k' | session.Damaged s m k' ∧ k' ∉ insert k m.repairSeen } ⊆
        { k' | session.Damaged s m k' ∧ k' ∉ m.repairSeen } \ {k} := by
      rintro k' ⟨hk', hnot⟩
      refine ⟨⟨hk', fun h => hnot (Finset.mem_insert_of_mem h)⟩, fun h => hnot ?_⟩
      rw [Set.mem_singleton_iff] at h
      rw [h]
      exact Finset.mem_insert_self k _
    have hfin : Set.Finite { k' | session.Damaged s m k' ∧ k' ∉ m.repairSeen } :=
      hfinite.subset (fun k' hk' => hk'.1)
    have hcard := Set.ncard_le_ncard hsub hfin.sdiff
    have hone := Set.ncard_sdiff_singleton_add_one
      (show k ∈ { k' | session.Damaged s m k' ∧ k' ∉ m.repairSeen } from
        ⟨hdamaged, hseen⟩) hfin
    have hleft : session.repairsLeft s
        { m with
          repairSeen := insert k m.repairSeen
          repairQueue := m.repairQueue ++ [k] } =
        (m.repairQueue ++ [k]).length + Set.ncard
          { k' | session.Damaged s m k' ∧ k' ∉ insert k m.repairSeen } := rfl
    rw [hleft, List.length_append, List.length_singleton,
      RepairSession.repairsLeft]
    omega

/-- The loop over the messages of a read adds no repairs. -/
theorem repairsLeft_detectDamage
    (now : Nat) (key : ChannelCacheKey) {messages : List StoredMessage}
    (hfinite : Set.Finite { k | session.Damaged s m k })
    (hmessages : ∀ message ∈ messages,
      session.codec.projectionDamaged message = true →
        session.Damaged s m (repairKey key message)) :
    (session.codec.detectDamage now key messages m).channelMessageCache =
        m.channelMessageCache ∧
      session.repairsLeft s (session.codec.detectDamage now key messages m) ≤
        session.repairsLeft s m := by
  induction messages generalizing m with
  | nil =>
      exact ⟨rfl, Nat.le_refl _⟩
  | cons message messages ih =>
      unfold Codec.detectDamage at ih ⊢
      rw [List.foldl_cons]
      by_cases hdamaged : session.codec.projectionDamaged message = true
      · rw [if_pos hdamaged]
        have hfound := hmessages message List.mem_cons_self hdamaged
        have hcache : (m.enqueueProjectionRepair now
            (repairKey key message)).channelMessageCache = m.channelMessageCache :=
          cache_enqueueProjectionRepair now
        obtain ⟨hrest, hleft⟩ := ih
          (hfinite.subset (fun k hk => hk.congr hcache.symm))
          (fun message' hmem hd =>
            (hmessages message' (List.mem_cons_of_mem _ hmem) hd).congr hcache)
        exact ⟨hrest.trans hcache,
          hleft.trans (repairsLeft_enqueue now hfinite hfound)⟩
      · rw [if_neg hdamaged]
        exact ih hfinite
          (fun message' hmem => hmessages message' (List.mem_cons_of_mem _ hmem))

/-- Fewer repairs are left where less is damaged. -/
theorem repairsLeft_mono
    (hfinite : Set.Finite { k | session.Damaged s m k })
    (hrepairs : m'.repairs = m.repairs)
    (hsub : ∀ k, session.Damaged s m' k → session.Damaged s m k) :
    session.repairsLeft s m' ≤ session.repairsLeft s m := by
  have hqueue : m'.repairQueue = m.repairQueue := congrArg Prod.fst hrepairs
  have hseen : m'.repairSeen = m.repairSeen :=
    congrArg (fun r => r.2.1) hrepairs
  unfold RepairSession.repairsLeft
  rw [hqueue, hseen]
  refine Nat.add_le_add_left (Set.ncard_le_ncard ?_ ?_) _
  · exact fun k hk => ⟨hsub k hk.1, hk.2⟩
  · exact hfinite.subset (fun k hk => hk.1)

/-- A query finds no damage that was not there. -/
theorem damaged_of_query
    {key : ChannelCacheKey} {limit offset : Nat}
    (h : session.Damaged s (m.queryTimelineSnapshot session.cacheConfig
      s.listMessages key limit offset).2 k) :
    session.Damaged s m k := by
  rcases h with hrow | ⟨entry, hentry, message, hmem, hsid, hdamaged⟩
  · exact Or.inl hrow
  · have hstored := storedEntry_queryTimelineSnapshot session.cacheConfig
      s.listMessages m key limit offset
      { channelId := k.channelId, channelType := k.channelType }
    rw [hentry] at hstored
    generalize hnew : some entry = found at hstored
    cases hstored with
    | dropped =>
        cases hnew
    | kept =>
        exact Or.inr ⟨entry, hnew.symm, message, hmem, hsid, hdamaged⟩
    | filled entry' hkey hmessages hmore =>
        cases hnew
        obtain ⟨r, hr, hchannel, htype, rfl⟩ := Store.row_of_mem_listMessages
          (List.mem_of_mem_take (hmessages.subset hmem))
        rw [← hkey] at hchannel htype
        refine Or.inl ⟨r, hr, hchannel, htype, ?_, hdamaged⟩
        exact (serverMessageId_of_damaged hdamaged).trans (congrArg some hsid)

/-- What a query returns damaged is damaged in the store or stays so in the cache. -/
theorem damaged_of_answer
    {key : ChannelCacheKey} {limit offset : Nat} {message : StoredMessage}
    (hmem : message ∈ (m.queryTimelineSnapshot session.cacheConfig
      s.listMessages key limit offset).1.messages)
    (hdamaged : session.codec.projectionDamaged message = true) :
    session.Damaged s (m.queryTimelineSnapshot session.cacheConfig
      s.listMessages key limit offset).2 (repairKey key message) := by
  cases hcached : m.snapshotFromCache session.cacheConfig key limit offset with
  | none =>
      have hlisted : message ∈ (s.listMessages key (max limit 1 + 1) offset).take
          (max limit 1) := by
        unfold Memory.queryTimelineSnapshot at hmem
        rwa [hcached] at hmem
      obtain ⟨r, hr, hchannel, htype, rfl⟩ := Store.row_of_mem_listMessages
        (List.mem_of_mem_take hlisted)
      exact Or.inl ⟨r, hr, hchannel, htype, serverMessageId_of_damaged hdamaged,
        hdamaged⟩
  | some found =>
      obtain ⟨snapshot, m'⟩ := found
      obtain ⟨-, -, rfl, entry, hentry, -, rfl⟩ := snapshotFromCache_eq_some hcached
      unfold Memory.queryTimelineSnapshot at hmem ⊢
      rw [hcached] at hmem ⊢
      exact Or.inr ⟨entry, hentry, message, List.mem_of_mem_take hmem, rfl,
        hdamaged⟩

/-- What is damaged after a repair that healed was damaged, and is another message. -/
theorem damaged_of_healed
    {q : RepairRequest} {queue : List RepairKey}
    (hothers : ∀ r ∈ s'.message.rows,
      session.codec.projectionDamaged (r.toStored none) = true →
        r ∈ q.store.message.rows ∧
          r.serverMessageId ≠ some q.key.serverMessageId)
    (h : session.Damaged s' (Memory.evictChannelCache
      { m with
        repairQueue := queue
        repairSeen := m.repairSeen.erase q.key
        repairBackoff := Function.update m.repairBackoff q.key none }
      { channelId := q.key.channelId, channelType := q.key.channelType }) k) :
    session.Damaged q.store m k ∧ k ≠ q.key := by
  rcases h with ⟨r, hr, hchannel, htype, hsid, hdamaged⟩ |
    ⟨entry, hentry, message, hmem, hsid, hdamaged⟩
  · obtain ⟨hold, hne⟩ := hothers r hr hdamaged
    refine ⟨Or.inl ⟨r, hold, hchannel, htype, hsid, hdamaged⟩, ?_⟩
    rintro rfl
    exact hne hsid
  · rw [channelMessageCache_evict] at hentry
    split at hentry
    · cases hentry
    · rename_i hother
      refine ⟨Or.inr ⟨entry, hentry, message, hmem, hsid, hdamaged⟩, ?_⟩
      rintro rfl
      exact hother rfl

/-- A repair that heals takes one off those that are left. -/
theorem repairsLeft_healed
    {q : RepairRequest} {queue : List RepairKey}
    (hfinite : Set.Finite { k | session.Damaged q.store m k })
    (hqueue : m.repairQueue = q.key :: queue)
    (hothers : ∀ r ∈ s'.message.rows,
      session.codec.projectionDamaged (r.toStored none) = true →
        r ∈ q.store.message.rows ∧
          r.serverMessageId ≠ some q.key.serverMessageId) :
    session.repairsLeft s' (Memory.evictChannelCache
      { m with
        repairQueue := queue
        repairSeen := m.repairSeen.erase q.key
        repairBackoff := Function.update m.repairBackoff q.key none }
      { channelId := q.key.channelId, channelType := q.key.channelType }) + 1 ≤
        session.repairsLeft q.store m := by
  generalize hm' : Memory.evictChannelCache
    { m with
      repairQueue := queue
      repairSeen := m.repairSeen.erase q.key
      repairBackoff := Function.update m.repairBackoff q.key none }
    { channelId := q.key.channelId, channelType := q.key.channelType } = m'
  have hrepairs : m'.repairs = (queue, m.repairSeen.erase q.key,
      Function.update m.repairBackoff q.key none) := by
    rw [← hm', repairs_evict]
    rfl
  have hqueue' : m'.repairQueue = queue := congrArg Prod.fst hrepairs
  have hseen' : m'.repairSeen = m.repairSeen.erase q.key :=
    congrArg (fun r => r.2.1) hrepairs
  have hsub : { k | session.Damaged s' m' k ∧ k ∉ m'.repairSeen } ⊆
      { k | session.Damaged q.store m k ∧ k ∉ m.repairSeen } := by
    rintro k ⟨hk, hnot⟩
    rw [← hm'] at hk
    obtain ⟨hold, hne⟩ := damaged_of_healed hothers hk
    rw [hseen'] at hnot
    exact ⟨hold, fun h => hnot (Finset.mem_erase.mpr ⟨hne, h⟩)⟩
  have hcard := Set.ncard_le_ncard hsub (hfinite.subset (fun k hk => hk.1))
  unfold RepairSession.repairsLeft
  rw [hqueue', hqueue, List.length_cons]
  omega

/-- One round of the loop of a tick, where the request heals. -/
theorem drainProjectionRepairs_healed
    {q : RepairRequest} {queue : List RepairKey} {requests : List RepairRequest}
    {id : Nat} (now fuel : Nat) (hqueue : m.repairQueue = q.key :: queue)
    (hrequest : session.request q.env (q.store, requests) q.key =
      (.repaired id, (s', requests ++ [q]))) :
    (m.drainProjectionRepairs (session.request q.env) now (fuel + 1)
        (q.store, requests)).2 =
      ((Memory.evictChannelCache
        { m with
          repairQueue := queue
          repairSeen := m.repairSeen.erase q.key
          repairBackoff := Function.update m.repairBackoff q.key none }
        { channelId := q.key.channelId, channelType := q.key.channelType
          }).drainProjectionRepairs (session.request q.env) now fuel
            (s', requests ++ [q])).2 := by
  rw [Memory.drainProjectionRepairs, hqueue]
  dsimp only
  rw [hrequest]

/-- A tick only adds to the requests. -/
theorem requests_drainProjectionRepairs
    (env : Env) (now fuel : Nat) (m : Memory) (st : Store × List RepairRequest) :
    st.2 <+: (m.drainProjectionRepairs (session.request env) now fuel st).2.1.2 := by
  induction fuel generalizing m st with
  | zero =>
      exact List.prefix_rfl
  | succ fuel ih =>
      rw [Memory.drainProjectionRepairs]
      split
      · exact List.prefix_rfl
      · rename_i key queue hqueue
        dsimp only
        refine List.IsPrefix.trans ?_ (ih _ _)
        exact List.prefix_append _ _

/-- A tick whose requests heal uses up one of the repairs left for each. -/
theorem repairsLeft_drain
    (env : Env) (now fuel : Nat) {requests : List RepairRequest}
    (hfinite : Set.Finite { k | session.Damaged s m k })
    (hheals : ∀ q ∈ (m.drainProjectionRepairs (session.request env) now fuel
      (s, requests)).2.1.2, session.Heals q) :
    let after := (m.drainProjectionRepairs (session.request env) now fuel
      (s, requests)).2
    (∀ k, session.Damaged after.1.1 after.2 k → session.Damaged s m k) ∧
      session.repairsLeft after.1.1 after.2 + after.1.2.length ≤
        session.repairsLeft s m + requests.length := by
  induction fuel generalizing s m requests with
  | zero =>
      exact ⟨fun k hk => hk, Nat.le_refl _⟩
  | succ fuel ih =>
      cases hqueue : m.repairQueue with
      | nil =>
          rw [Memory.drainProjectionRepairs, hqueue]
          exact ⟨fun k hk => hk, Nat.le_refl _⟩
      | cons key queue =>
          let q : RepairRequest := { store := s, env := env, key := key }
          have hfirst : session.Heals q := by
            refine hheals q ?_
            rw [Memory.drainProjectionRepairs, hqueue]
            refine (requests_drainProjectionRepairs env now fuel _ _).subset ?_
            exact List.mem_append_right _ (List.mem_singleton_self q)
          obtain ⟨id, s', hrequest, hothers⟩ := hfirst.request requests
          have hround := drainProjectionRepairs_healed (q := q) now fuel hqueue
            hrequest
          have hleft := repairsLeft_healed (q := q) hfinite hqueue hothers
          have hdamaged := fun k hk =>
            (@damaged_of_healed session s' m k q queue hothers hk).1
          rw [hround] at hheals ⊢
          obtain ⟨hrest, hless⟩ := ih (hfinite.subset hdamaged) hheals
          refine ⟨fun k hk => hdamaged k (hrest k hk), ?_⟩
          rw [List.length_append, List.length_singleton] at hless
          refine Nat.le_trans hless ?_
          have hstart : session.repairsLeft q.store m =
              session.repairsLeft s m := rfl
          omega

/-- A read or a tick adds to the requests only. -/
theorem requests_step (w : RepairState) (action : RepairAction) :
    w.requests <+: (session.step w action).requests := by
  cases action with
  | read now key limit offset =>
      exact List.prefix_rfl
  | tick now env =>
      exact requests_drainProjectionRepairs env now repairBatchLimit w.memory
        (w.store, w.requests)

theorem requests_run (w : RepairState) (actions : List RepairAction) :
    w.requests <+: (EventRun.run session.step w actions).requests := by
  induction actions generalizing w with
  | nil =>
      exact List.prefix_rfl
  | cons action actions ih =>
      exact (requests_step w action).trans (ih _)

/-- A read queues no more than there is, and a tick uses up what it requests. -/
theorem repairsLeft_step
    {w : RepairState} (action : RepairAction)
    (hfinite : Set.Finite { k | session.Damaged w.store w.memory k })
    (hheals : ∀ q ∈ (session.step w action).requests, session.Heals q) :
    let w' := session.step w action
    (∀ k, session.Damaged w'.store w'.memory k →
        session.Damaged w.store w.memory k) ∧
      session.repairsLeft w'.store w'.memory + w'.requests.length ≤
        session.repairsLeft w.store w.memory + w.requests.length := by
  cases action with
  | read now key limit offset =>
      obtain ⟨store, m, requests⟩ := w
      have hquery := fun k => @damaged_of_query session store m k key limit offset
      have hmono := @repairsLeft_mono session store m _ hfinite
        (repairs_queryTimelineSnapshot session.cacheConfig store.listMessages m key
          limit offset) hquery
      have hmessages := fun message hmem hdamaged =>
        @damaged_of_answer session store m key limit offset message hmem hdamaged
      obtain ⟨hcache, hleft⟩ := repairsLeft_detectDamage now key
        (hfinite.subset hquery) hmessages
      refine ⟨fun k hk => hquery k (hk.congr hcache.symm), ?_⟩
      exact Nat.add_le_add_right (hleft.trans hmono) _
  | tick now env =>
      exact repairsLeft_drain env now repairBatchLimit hfinite hheals

/--
In a run of reads and ticks whose requests all heal, no more repairs are requested
than were queued at first and than there was damage that was not queued.
-/
theorem requests_le
    {w : RepairState} (hnew : w.requests = [])
    (hfinite : Set.Finite { k | session.Damaged w.store w.memory k })
    (actions : List RepairAction)
    (hheals : ∀ q ∈ (EventRun.run session.step w actions).requests,
      session.Heals q) :
    (EventRun.run session.step w actions).requests.length ≤
      session.repairsLeft w.store w.memory := by
  have hrun : ∀ (actions : List RepairAction) (w : RepairState),
      Set.Finite { k | session.Damaged w.store w.memory k } →
      (∀ q ∈ (EventRun.run session.step w actions).requests, session.Heals q) →
      (EventRun.run session.step w actions).requests.length ≤
        session.repairsLeft w.store w.memory + w.requests.length := by
    intro actions
    induction actions with
    | nil =>
        intro w _ _
        exact Nat.le_add_left _ _
    | cons action actions ih =>
        intro w hfinite hheals
        obtain ⟨hdamaged, hless⟩ := repairsLeft_step action hfinite (fun q hq =>
          hheals q ((requests_run (session.step w action) actions).subset hq))
        exact (ih _ (hfinite.subset hdamaged) hheals).trans hless
  have hle := hrun actions w hfinite hheals
  rwa [hnew] at hle

/-- A session that has nothing cached finds finitely many messages damaged. -/
theorem damaged_finite
    (hcache : ∀ key, m.channelMessageCache key = none) :
    Set.Finite { k | session.Damaged s m k } := by
  refine Set.Finite.subset (List.finite_toSet (s.message.rows.map (fun r =>
    ({ channelType := r.channelType
       channelId := r.channelId
       serverMessageId := r.serverMessageId.getD 0 } : RepairKey)))) ?_
  rintro k (⟨r, hr, hchannel, htype, hsid, -⟩ | ⟨entry, hentry, -⟩)
  · refine List.mem_map.mpr ⟨r, hr, ?_⟩
    rw [hchannel, htype, hsid]
    rfl
  · rw [hcache] at hentry
    cases hentry

/-- A message that the server does not have is queued again by the next read. -/
theorem missing_requested_again
    {requests : List RepairRequest} {queue : List RepairKey} (env : Env)
    (now later : Nat) (hqueue : m.repairQueue = k :: queue)
    (hroom : queue.length < repairQueueLimit)
    (hmissing : (session.request env (s, requests) k).1 = .missing) :
    ((m.drainProjectionRepairs (session.request env) now 1
        (s, requests)).2.2.enqueueProjectionRepair later k).repairQueue =
      queue ++ [k] := by
  have hround : (m.drainProjectionRepairs (session.request env) now 1
      (s, requests)).2.2 =
      { m with
        repairQueue := queue
        repairSeen := m.repairSeen.erase k
        repairBackoff := Function.update m.repairBackoff k none } := by
    rw [Memory.drainProjectionRepairs, hqueue]
    dsimp only
    rw [hmissing]
    rfl
  rw [hround, Memory.enqueueProjectionRepair]
  simp [Nat.not_le.mpr hroom]

/--
A repair that returned its message healed the row exactly if the served item was
current and the send time was not a wrong one in milliseconds; in a run whose
requests all heal there are finitely many; and a message that is missing at the
server is queued by every later read.
-/
theorem projection_repairs (session : RepairSession) :
    (∀ (key : RepairKey) (item : MessageHistoryItem) (row : MessageRow)
        (extra : Option MessageExtraRow) (env : Env) (s s' : Store) (id : Nat),
      s.byServerId key.serverMessageId = some row →
      session.codec.projectionDamaged (row.toStored extra) = true →
      session.server.Answers key item → session.codec.Complete key item →
      session.codec.repairMessageProjection session.currentUid session.server key
        env s = (.ok (some id), s') →
      ∃ m, s'.storedMessage id = some m ∧
        m.serverMessageId = some key.serverMessageId ∧
        (session.codec.projectionDamaged m = false ↔ item.Heals row)) ∧
    (∀ (w : RepairState) (actions : List RepairAction),
      w.requests = [] →
      Set.Finite { k | session.Damaged w.store w.memory k } →
      (∀ q ∈ (EventRun.run session.step w actions).requests, session.Heals q) →
      (EventRun.run session.step w actions).requests.length ≤
        w.memory.repairQueue.length + Set.ncard
          { k | session.Damaged w.store w.memory k ∧
            k ∉ w.memory.repairSeen }) ∧
    (∀ (m : Memory) (s : Store) (k : RepairKey) (queue : List RepairKey)
        (requests : List RepairRequest) (env : Env) (now later : Nat),
      m.repairQueue = k :: queue → queue.length < repairQueueLimit →
      (session.request env (s, requests) k).1 = .missing →
      ((m.drainProjectionRepairs (session.request env) now 1
          (s, requests)).2.2.enqueueProjectionRepair later k).repairQueue =
        queue ++ [k]) := by
  refine ⟨?_, ?_, ?_⟩
  · intro key item row extra env s s' id hrow hdamaged hanswer hcomplete hrun
    exact repairMessageProjection_damaged_iff hrow hdamaged hanswer hcomplete hrun
  · intro w actions hnew hfinite hheals
    exact requests_le hnew hfinite actions hheals
  · intro m s k queue requests env now later hqueue hroom hmissing
    exact missing_requested_again env now later hqueue hroom hmissing

/-- The message 900 of channel 10 as the server has it. -/
def repairItem : MessageHistoryItem where
  messageId := 900
  channelId := 10
  senderId := 1
  content := "hi"
  messageType := "text"
  timestamp := 1785148271317
  messageSeq := some 5
  metadata := none
  revoked := false

/-- A session whose server answers every repair with one item. -/
def repairSession (item : MessageHistoryItem) : RepairSession where
  codec := sampleCodec
  currentUid := some 2
  cacheConfig := some
    { minMessages := 20
      maxMessages := 200
      perChannelBudgetBytes := 65536
      globalBudgetBytes := 1048576 }
  server := fun _ => .ok
    { beforeMessages := []
      anchorMessage := item
      afterMessages := [] }

def repairKey900 : RepairKey where
  channelType := 1
  channelId := 10
  serverMessageId := 900

/-- The message 900 is stored with this pts and this send time. -/
def storedBefore (pts createdAt : Int) : Store :=
  let s := Store.empty.afterUpsert none (.calm 1) (.text 900 0 10 1 pts "hi")
  { s with
    message := s.message.modify (fun _ => true)
      (fun r => { r with createdAt := createdAt }) (fun _ => rfl) (fun _ => rfl) }

def repairState (s : Store) : RepairState where
  store := s
  memory := .fresh
  requests := []

/-- Open the channel, and let the repairs run. -/
def readAndTick : List RepairAction :=
  [.read 1 { channelId := 10, channelType := 1 } 20 0, .tick 2 (.calm 2)]

/--
A row from before the column for the precision counts as one in milliseconds: a
send time in seconds survives the repair, and every read requests it again.  So it
is with a message that the server has not, and answers with another.
-/
theorem repairs_requested_again :
    let session := repairSession repairItem
    let repaired := session.codec.repairMessageProjection session.currentUid
      session.server repairKey900 (.calm 2) (storedBefore 5 1785148271)
    repairOutcome repaired.1 = .repaired 1 ∧
      (repaired.2.storedMessage 1).any session.codec.projectionDamaged = true ∧
      (EventRun.run session.step (repairState (storedBefore 5 1785148271))
        (readAndTick ++ readAndTick ++ readAndTick)).requests.map
          (fun q => q.key) = [repairKey900, repairKey900, repairKey900] ∧
      (EventRun.run (repairSession { repairItem with messageId := 901 }).step
        (repairState (storedBefore 0 1785148271317))
        (readAndTick ++ readAndTick ++ readAndTick)).requests.map
          (fun q => q.key) = [repairKey900, repairKey900, repairKey900] := by
  decide +kernel

/-- A row without pts is repaired by the first tick, and asked for no more. -/
theorem projection_repairs_numbered :
    (∃ m, ((sampleCodec.repairMessageProjection (some 2)
          (repairSession repairItem).server repairKey900 (.calm 2)
          (storedBefore 0 1785148271317)).2).storedMessage 1 = some m ∧
        m.serverMessageId = some 900 ∧
        (sampleCodec.projectionDamaged m = false ↔
          repairItem.Heals
            { UpsertRemoteMessageInput.toRow (.text 900 0 10 1 0 "hi") 1 1 with
              createdAt := 1785148271317 })) ∧
      (EventRun.run (repairSession repairItem).step
        (repairState (storedBefore 0 1785148271317)) readAndTick).requests.length ≤
          0 + Set.ncard { k | (repairSession repairItem).Damaged
            (storedBefore 0 1785148271317) .fresh k ∧ k ∉ (∅ : Finset RepairKey) } ∧
      ((Memory.drainProjectionRepairs
          ((repairSession { repairItem with messageId := 901 }).request (.calm 2)) 2 1
          (storedBefore 0 1785148271317, [])
          { Memory.fresh with repairQueue := [repairKey900] }).2.2.enqueueProjectionRepair
            3 repairKey900).repairQueue = [] ++ [repairKey900] := by
  have hcomplete : sampleCodec.Complete repairKey900 repairItem :=
    { messageId := rfl
      channelId := rfl
      positive := by decide
      numbered := by decide
      sent := by decide
      metadata := by decide }
  refine ⟨?_, ?_, ?_⟩
  · exact (projection_repairs (repairSession repairItem)).1 repairKey900 repairItem _
      none (.calm 2) (storedBefore 0 1785148271317) _ 1 (by decide +kernel)
      (by decide +kernel) rfl hcomplete (Prod.ext rfl rfl)
  · refine (projection_repairs (repairSession repairItem)).2.1
      (repairState (storedBefore 0 1785148271317)) readAndTick rfl
      (damaged_finite (fun _ => rfl)) ?_
    intro q hq
    have hsingle : q = { store := storedBefore 0 1785148271317
                         env := .calm 2
                         key := repairKey900 } := List.mem_singleton.mp hq
    subst hsingle
    refine ⟨⟨2, rfl⟩, repairItem, rfl, hcomplete, ?_⟩
    intro row hrow
    have hrow' : (storedBefore 0 1785148271317).byServerId 900 = some
        { UpsertRemoteMessageInput.toRow (.text 900 0 10 1 0 "hi") 1 1 with
          createdAt := 1785148271317 } := by
      decide +kernel
    rw [show repairKey900.serverMessageId = 900 from rfl, hrow'] at hrow
    cases hrow
    exact ⟨by decide, by decide⟩
  · exact (projection_repairs (repairSession { repairItem with messageId := 901 })).2.2
      { Memory.fresh with repairQueue := [repairKey900] }
      (storedBefore 0 1785148271317) repairKey900 [] [] (.calm 2) 2 3 rfl
      (by decide) (by decide +kernel)

end Runs

end PrivchatSdk
