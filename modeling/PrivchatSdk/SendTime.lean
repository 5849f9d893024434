import PrivchatSdk.CanonicalInbound
import PrivchatSdk.Store.Change

/-!
# The send time of a message over all its projections

A row keeps the most precise send time that was written to it, as the source
reports the precision.  Every adapter that goes through a sync item reports
milliseconds, also the push, which knows whole seconds: what is written first
stays (`SentRow.step`), so that the row ends with the right time exactly if the
first projection knew it (`createdAt_settles_iff`).
-/

namespace PrivchatSdk

open StatementExec RelTable Receive

section Apply

/-- The statements of the message branch that concern the message itself. -/
def Codec.applyMessageItem
    (codec : Codec) (currentUid : Option Nat) (scope : Option String)
    (item : SyncEntityItem MessageSyncPayload) : StoreM PUnit := do
  let now ← nowMs
  match codec.messageItemAction scope now item with
  | .skip => pure .unit
  | .revoke serverMessageId revoker => do
      let _ ← setMessageRevokeByServerMessageId serverMessageId true revoker
      pure .unit
  | .upsert input => do
      let _ ← upsertRemoteMessageWithResult currentUid input
      pure .unit

/-- `store_history_items` for one item. -/
def Codec.storeHistoryItem
    (codec : Codec) (currentUid : Option Nat) (item : MessageHistoryItem)
    (channelType : Int) : StoreM PUnit := do
  let _ ← batchUpsertRemoteMessages currentUid
    [codec.historyItemToUpsertInput item channelType]
  pure .unit

end Apply

section Projections

/-- A message with its send time in milliseconds, which fits into a push. -/
structure SentMessage where
  serverMessageId : Nat
  channelId : Nat
  sentAtMs : Nat
  serverMessageId_pos : 0 < serverMessageId
  channelId_pos : 0 < channelId
  sentAt_ms : 100000000000 ≤ sentAtMs
  sentAt_lt : sentAtMs / 1000 < 2 ^ 32

/-- What one of the sources says about the message. -/
inductive Projection (codec : Codec) (m : SentMessage) where
  | push (p : PushMessageRequest) (hlive : p.deleted = false)
      (hid : p.serverMessageId = m.serverMessageId)
      (hchannel : p.channelId = m.channelId)
      (htime : p.timestamp = m.sentAtMs / 1000)
  | timelinePush (p : PushMessageRequest) (type : ContentMessageType)
      (legacy : Json) (hid : p.serverMessageId = m.serverMessageId)
      (hchannel : p.channelId = m.channelId)
      (htime : p.timestamp = m.sentAtMs / 1000)
  | difference (c : ServerCommit) (type : Int)
      (contentAndExtra : String × Option String)
      (hmessage : codec.syncItemFromDifferenceCommit c =
        .message (commitMessageItem c type contentAndExtra))
      (hid : c.serverMsgId = m.serverMessageId)
      (hchannel : c.channelId = m.channelId)
      (htime : c.serverTimestamp = m.sentAtMs)
  | history (item : MessageHistoryItem) (channelType : Int)
      (hid : item.messageId = m.serverMessageId)
      (htime : item.timestamp = m.sentAtMs)
  | entity (item : SyncEntityItem MessageSyncPayload) (p : MessageSyncPayload)
      (hpayload : item.payload = some p) (hlive : item.deleted = false)
      (hid : messageItemServerId item = m.serverMessageId)
      (hchannel : p.channelId = some m.channelId)
      (htime : (p.timestamp.or p.createdAt).or p.sendTime = some m.sentAtMs)

namespace Projection

variable {codec : Codec} {m : SentMessage}

/-- The source knows whole seconds only. -/
def seconds : Projection codec m → Bool
  | .push .. => true
  | .timelinePush .. => true
  | _ => false

/-- The item of a timeline push. -/
def timelineItem
    (codec : Codec) (p : PushMessageRequest) (type : ContentMessageType)
    (legacy : Json) : SyncEntityItem MessageSyncPayload :=
  commitMessageItem (canonicalPushCommit p (.newMessage type legacy)) type.toI32
    (codec.normalizedMessageContentAndExtra legacy)

/-- What the projection is upserted as. -/
def input (scope : Option String) (now : Int) :
    Projection codec m → UpsertRemoteMessageInput
  | .push p .. =>
      codec.messageItemInput scope now (codec.pushMessageToSyncItem p)
  | .timelinePush p type legacy .. =>
      codec.messageItemInput scope now (timelineItem codec p type legacy)
  | .difference c type contentAndExtra .. =>
      codec.messageItemInput scope now (commitMessageItem c type contentAndExtra)
  | .history item channelType .. =>
      codec.historyItemToUpsertInput item channelType
  | .entity item .. =>
      codec.messageItemInput scope now item

/-- The store after the projection arrived. -/
def arrive
    (currentUid : Option Nat) (scope : Option String) (now : Int) (s : Store) :
    Projection codec m → Store
  | .push p .. =>
      (codec.applyMessageItem currentUid scope
        (codec.pushMessageToSyncItem p)).after (.calm now) s
  | .timelinePush p type legacy .. =>
      (codec.applyMessageItem currentUid scope
        (timelineItem codec p type legacy)).after (.calm now) s
  | .difference c type contentAndExtra .. =>
      (codec.applyMessageItem currentUid scope
        (commitMessageItem c type contentAndExtra)).after (.calm now) s
  | .history item channelType .. =>
      (codec.storeHistoryItem currentUid item channelType).after (.calm now) s
  | .entity item .. =>
      (codec.applyMessageItem currentUid scope item).after (.calm now) s

/-- The send time that the projection brings. -/
def bringsMs (p : Projection codec m) : Int :=
  if p.seconds then ((m.sentAtMs / 1000 * 1000 : Nat) : Int) else m.sentAtMs

end Projection

/-- The send time that a row should hold after the projections. -/
def SentMessage.settledMs
    {codec : Codec} (m : SentMessage) (ps : List (Projection codec m)) : Int :=
  if ps.any (fun p => !p.seconds) then m.sentAtMs
  else ((m.sentAtMs / 1000 * 1000 : Nat) : Int)

end Projections

section Arrivals

variable {codec : Codec} {m : SentMessage}

theorem applyMessageItem_upsert
    {currentUid : Option Nat} {scope : Option String}
    {item : SyncEntityItem MessageSyncPayload} {now : Int} {s : Store}
    {input : UpsertRemoteMessageInput}
    (hupsert : codec.messageItemAction scope now item = .upsert input) :
    (codec.applyMessageItem currentUid scope item).after (.calm now) s =
      s.afterUpsert currentUid (.calm now) input := by
  unfold Exec.after Codec.applyMessageItem
  rw [nowMs_bind]
  have hnow : (Env.calm now).now = now := rfl
  simp only [hnow, hupsert, Exec.bind_run, Store.afterUpsert, Exec.after]
  cases upsertRemoteMessageWithResult currentUid input (.calm now) s with
  | mk res s' =>
  cases res with
  | ok r =>
      rfl
  | error e =>
      rfl

/-- A live item with server id and channel is upserted. -/
theorem messageItemAction_upsert
    {scope : Option String} {now : Int}
    {item : SyncEntityItem MessageSyncPayload} (hlive : item.deleted = false)
    (hid : messageItemServerId item ≠ 0)
    (hchannel : (canonicalOfItem scope now item).channelId ≠ 0) :
    codec.messageItemAction scope now item =
      .upsert (codec.messageItemInput scope now item) := by
  have hid' : (canonicalOfItem scope now item).serverMessageId ≠ 0 := hid
  simp [Codec.messageItemAction, hid', hlive, hchannel]

/-- A history item is one upsert. -/
theorem after_storeHistoryItem
    (currentUid : Option Nat) (item : MessageHistoryItem) (channelType : Int)
    (env : Env) (s : Store) :
    (codec.storeHistoryItem currentUid item channelType).after env s =
      s.afterUpsert currentUid env
        (codec.historyItemToUpsertInput item channelType) := by
  have hbatch := after_batchUpsert currentUid
    [codec.historyItemToUpsertInput item channelType] env s
  unfold Exec.after at hbatch ⊢
  unfold Codec.storeHistoryItem
  rw [Exec.bind_run]
  cases hrun : batchUpsertRemoteMessages currentUid
      [codec.historyItemToUpsertInput item channelType] env s with
  | mk res s' =>
  rw [hrun] at hbatch
  cases res with
  | ok results =>
      exact hbatch
  | error e =>
      exact hbatch

/-- A projection is one upsert, and says milliseconds whatever its source knows. -/
theorem Projection.arrive_eq
    (p : Projection codec m) (currentUid : Option Nat) (scope : Option String)
    (now : Int) (s : Store) :
    p.arrive currentUid scope now s =
      s.afterUpsert currentUid (.calm now) (p.input scope now) := by
  have hpos := m.serverMessageId_pos
  have hchannelPos := m.channelId_pos
  cases p with
  | push p hlive hid hchannel htime =>
      refine applyMessageItem_upsert (messageItemAction_upsert hlive ?_ ?_)
      · have heq : messageItemServerId (codec.pushMessageToSyncItem p) =
            p.serverMessageId := rfl
        omega
      · have heq : (canonicalOfItem scope now
            (codec.pushMessageToSyncItem p)).channelId = p.channelId := rfl
        omega
  | timelinePush p type legacy hid hchannel htime =>
      refine applyMessageItem_upsert (messageItemAction_upsert rfl ?_ ?_)
      · have heq : messageItemServerId (timelineItem codec p type legacy) =
            p.serverMessageId := rfl
        omega
      · have heq : (canonicalOfItem scope now
            (timelineItem codec p type legacy)).channelId = p.channelId := rfl
        omega
  | difference c type contentAndExtra hmessage hid hchannel htime =>
      refine applyMessageItem_upsert (messageItemAction_upsert rfl ?_ ?_)
      · have heq : messageItemServerId
            (commitMessageItem c type contentAndExtra) = c.serverMsgId := rfl
        omega
      · have heq : (canonicalOfItem scope now
            (commitMessageItem c type contentAndExtra)).channelId =
              c.channelId := rfl
        omega
  | history item channelType hid htime =>
      exact after_storeHistoryItem currentUid item channelType (.calm now) s
  | entity item p hpayload hlive hid hchannel htime =>
      refine applyMessageItem_upsert (messageItemAction_upsert hlive ?_ ?_)
      · omega
      · have heq : (canonicalOfItem scope now item).channelId = m.channelId := by
          simp [canonicalOfItem, fromSyncEntity, hpayload, hchannel]
        omega

/-- What a projection is upserted with. -/
theorem Projection.input_eq
    (p : Projection codec m) (scope : Option String) (now : Int) :
    (p.input scope now).serverMessageId = m.serverMessageId ∧
      (p.input scope now).timestampPrecision = .milliseconds ∧
      sentAtMs (p.input scope now).timestamp now = p.bringsMs := by
  have hms := m.sentAt_ms
  have hlt := m.sentAt_lt
  have hkeep {v : Int} (hv : minPlausibleMs ≤ v) :
      sentAtMs (normalizeSentAtMs v) now = v := by
    unfold minPlausibleMs at hv
    rw [normalizeSentAtMs, minPlausibleMs, if_pos hv, sentAtMs, if_pos hv]
  have hsecs : normalizeSentAtMs ((m.sentAtMs / 1000 : Nat) : Int) =
      ((m.sentAtMs / 1000 * 1000 : Nat) : Int) := by
    rw [normalizeSentAtMs, minPlausibleMs, if_neg (by omega), if_pos (by omega)]
    omega
  cases p with
  | push p hlive hid hchannel htime =>
      refine ⟨hid, rfl, ?_⟩
      have heq : (codec.messageItemInput scope now
          (codec.pushMessageToSyncItem p)).timestamp =
            normalizeSentAtMs (normalizeSentAtMs p.timestamp) := rfl
      rw [Projection.input, heq, htime, hsecs]
      exact hkeep (by unfold minPlausibleMs; omega)
  | timelinePush p type legacy hid hchannel htime =>
      refine ⟨hid, rfl, ?_⟩
      have heq : (codec.messageItemInput scope now
          (timelineItem codec p type legacy)).timestamp =
            normalizeSentAtMs ((p.timestamp : Int) * 1000) := rfl
      rw [Projection.input, heq, htime]
      have hmul : ((m.sentAtMs / 1000 : Nat) : Int) * 1000 =
          ((m.sentAtMs / 1000 * 1000 : Nat) : Int) := by
        omega
      rw [hmul]
      exact hkeep (by unfold minPlausibleMs; omega)
  | difference c type contentAndExtra hmessage hid hchannel htime =>
      refine ⟨hid, rfl, ?_⟩
      have heq : (codec.messageItemInput scope now
          (commitMessageItem c type contentAndExtra)).timestamp =
            normalizeSentAtMs c.serverTimestamp := rfl
      rw [Projection.input, heq, htime]
      exact hkeep (by unfold minPlausibleMs; omega)
  | history item channelType hid htime =>
      refine ⟨hid, rfl, ?_⟩
      have heq : (codec.historyItemToUpsertInput item channelType).timestamp =
          normalizeSentAtMs (clampI64 item.timestamp) := rfl
      rw [Projection.input, heq, htime, clampI64_eq (by omega)]
      exact hkeep (by unfold minPlausibleMs; omega)
  | entity item p hpayload hlive hid hchannel htime =>
      refine ⟨hid, rfl, ?_⟩
      have heq : (codec.messageItemInput scope now item).timestamp =
          normalizeSentAtMs m.sentAtMs := by
        simp [Codec.messageItemInput, CanonicalInboundMessage.toUpsertInput,
          canonicalOfItem, fromSyncEntity, hpayload, htime]
      rw [Projection.input, heq]
      exact hkeep (by unfold minPlausibleMs; omega)

end Arrivals

section Settled

variable {S : Nat} {v : Int} {s₀ s : Store}
variable {currentUid : Option Nat} {input : UpsertRemoteMessageInput}

/--
The row of the message holds the send time for good, and no row joined those that
were there before it.
-/
structure SentRow (S : Nat) (v : Int) (s₀ s : Store) (row : MessageRow) : Prop where
  found : s.byServerId S = some row
  createdAt : row.createdAt = v
  precise : row.createdAtPrecision = .milliseconds
  others : ∀ r ∈ s.message.rows, r.id ≠ row.id → r ∈ s₀.message.rows

/-- The local id of a projection leads to its own row or to none. -/
theorem SentRow.byInputLocalId
    {row l : MessageRow} (h : SentRow S v s₀ s row)
    (hlocal : s₀.byInputLocalId currentUid input = none)
    (hl : s.byInputLocalId currentUid input = some l) :
    l.id = row.id := by
  obtain ⟨hmem, hfrom, hlid, huid, hpos⟩ := Store.mem_of_byInputLocalId hl
  by_contra hne
  have hold := h.others l hmem hne
  unfold Store.byInputLocalId at hlocal
  rw [if_pos (by simp [UpsertRemoteMessageInput.hasLocalIdentity, huid, hpos])]
    at hlocal
  have hnone := List.find?_eq_none.mp hlocal l hold
  simp [hfrom, hlid] at hnone

/-- The first projection inserts the row. -/
theorem SentRow.first
    (now : Int) (hpos : 0 < S) (hsid : input.serverMessageId = S)
    (hprecise : input.timestampPrecision = .milliseconds)
    (hnew : s₀.byServerId S = none)
    (hlocal : s₀.byInputLocalId currentUid input = none) :
    ∃ row, SentRow S (sentAtMs input.timestamp now) s₀
      (s₀.afterUpsert currentUid (.calm now) input) row := by
  subst hsid
  rcases afterUpsert_calm currentUid s₀ now hpos with
    ⟨row, hrow, -, -⟩ | ⟨base, t, row, htarget, -, -⟩ | ⟨t, -, -, ht, hafter⟩
  · rcases hrow with hrow | ⟨-, hrow⟩
    · rw [hnew] at hrow
      cases hrow
    · rw [hlocal] at hrow
      cases hrow
  · cases htarget with
    | byServerId _ hrow =>
        rw [hnew] at hrow
        cases hrow
    | byLocalId _ _ hrow =>
        rw [hlocal] at hrow
        cases hrow
    | merge _ _ hdrop =>
        rw [hnew] at hdrop
        cases hdrop
  · obtain ⟨-, hrows, -⟩ := Table.rows_of_insert ht
    refine ⟨input.toRow now s₀.message.nextRowid, ?_, rfl, hprecise, ?_⟩
    · refine (Store.byServerId_eq_some_iff _ hpos _).mpr ⟨?_, rfl⟩
      rw [hafter, Store.takeRevoke_message]
      simp [hrows]
    · intro r hr hne
      rw [hafter, Store.takeRevoke_message] at hr
      simp only [hrows, List.mem_append, List.mem_singleton] at hr
      rcases hr with hr | rfl
      · exact hr
      · exact absurd rfl hne

/-- No later projection changes the send time. -/
theorem SentRow.step
    {env : Env} {row : MessageRow} (hpos : 0 < S) (hv : 0 < v)
    (h : SentRow S v s₀ s row) (hsid : input.serverMessageId = S)
    (hlocal : s₀.byInputLocalId currentUid input = none) :
    ∃ row', SentRow S v s₀ (s.afterUpsert currentUid env input) row' := by
  subst hsid
  have hmessages := upsertedMessages_afterUpsert currentUid input env s
  obtain ⟨hmem, hrowS⟩ := (s.byServerId_eq_some_iff hpos row).mp h.found
  have htarget {base : Table MessageRow} {row' : MessageRow}
      (ht : UpsertTarget currentUid input s base row') :
      base = s.message ∧ row' = row := by
    cases ht with
    | byServerId _ hrow =>
        rw [h.found] at hrow
        cases hrow
        exact ⟨rfl, rfl⟩
    | byLocalId _ hnone =>
        rw [h.found] at hnone
        cases hnone
    | merge drop _ hdrop _ hkeep hne =>
        rw [h.found] at hdrop
        cases hdrop
        exact absurd (h.byInputLocalId hlocal hkeep) hne
  generalize hmsg : (s.afterUpsert currentUid env input).message = t at hmessages
  cases hmessages with
  | same _ hsame =>
      refine ⟨row, ?_, h.createdAt, h.precise, ?_⟩
      · refine (Store.byServerId_eq_some_iff _ hpos _).mpr ⟨?_, hrowS⟩
        rw [hmsg, hsame]
        exact hmem
      · intro r hr hne
        rw [hmsg, hsame] at hr
        exact h.others r hr hne
  | dropped _ row' _ ht =>
      obtain ⟨rfl, -⟩ := htarget ht
      refine ⟨row, ?_, h.createdAt, h.precise, ?_⟩
      · refine (Store.byServerId_eq_some_iff _ hpos _).mpr ⟨?_, hrowS⟩
        rw [hmsg]
        exact hmem
      · intro r hr hne
        rw [hmsg] at hr
        exact h.others r hr hne
  | written base _ row' _ ht hupdate =>
      obtain ⟨rfl, rfl⟩ := htarget ht
      have hcreated : (input.overwrite env.now row').createdAt = v := by
        have hold := h.createdAt
        have hprecise := h.precise
        simp only [UpsertRemoteMessageInput.overwrite, hprecise]
        rw [if_neg (by omega)]
        simp [hold]
      have hprecise : (input.overwrite env.now row').createdAtPrecision =
          .milliseconds := by
        have hold := h.createdAt
        have hprecise := h.precise
        simp only [UpsertRemoteMessageInput.overwrite, hprecise]
        rw [if_neg (by omega)]
        simp
      have hrowid : s.message.byRowid row'.id = some row' :=
        (s.message.byRowid_eq_some_iff _ _).mpr ⟨hmem, rfl⟩
      have hfound : t.byRowid row'.id = some (input.overwrite env.now row') := by
        rw [byRowid_of_update hupdate, hrowid]
        simp
      refine ⟨input.overwrite env.now row', ?_, hcreated, hprecise, ?_⟩
      · refine (Store.byServerId_eq_some_iff _ hpos _).mpr ⟨?_, rfl⟩
        rw [hmsg]
        exact ((t.byRowid_eq_some_iff _ _).mp hfound).1
      · intro r hr hne
        rw [hmsg] at hr
        rcases mem_of_update hupdate hr with ⟨r₀, hr₀, hid, rfl⟩ | ⟨hr, -⟩
        · exact absurd hid hne
        · exact h.others r hr hne
  | inserted _ _ hnone =>
      rw [h.found] at hnone
      cases hnone

end Settled

section Order

variable {codec : Codec} {m : SentMessage}

/-- The projections arrive one after another, each at a time of the clock. -/
def arriveAll
    (currentUid : Option Nat) (scope : Option String) (s : Store)
    (events : List (Int × Projection codec m)) : Store :=
  EventRun.run (fun s e => e.2.arrive currentUid scope e.1 s) s events

/-- The row of a stored message keeps its send time over all projections. -/
theorem SentRow.run
    {v : Int} (hv : 0 < v) {s₀ s : Store} {row : MessageRow}
    (h : SentRow m.serverMessageId v s₀ s row)
    (currentUid : Option Nat) (scope : Option String)
    {events : List (Int × Projection codec m)}
    (hlocal : ∀ e ∈ events,
      s₀.byInputLocalId currentUid (e.2.input scope e.1) = none) :
    ∃ row', SentRow m.serverMessageId v s₀
      (arriveAll currentUid scope s events) row' := by
  induction events generalizing s row with
  | nil =>
      exact ⟨row, h⟩
  | cons e events ih =>
      obtain ⟨hid, -, -⟩ := e.2.input_eq scope e.1
      obtain ⟨row', hrow'⟩ := h.step m.serverMessageId_pos hv
        hid (hlocal e List.mem_cons_self)
      rw [← e.2.arrive_eq] at hrow'
      exact ih hrow' (fun e' he' => hlocal e' (List.mem_cons_of_mem _ he'))

/-- What the first projection brings is right exactly in these cases. -/
theorem bringsMs_eq_settledMs_iff
    (first : Projection codec m) (rest : List (Projection codec m)) :
    first.bringsMs = m.settledMs (first :: rest) ↔
      m.sentAtMs % 1000 = 0 ∨ first.seconds = false ∨
        ∀ p ∈ rest, p.seconds = true := by
  unfold Projection.bringsMs SentMessage.settledMs
  cases hfirst : first.seconds with
  | false =>
      simp [hfirst]
  | true =>
      have hany : (first :: rest).any (fun p => !p.seconds) =
          rest.any (fun p => !p.seconds) := by
        simp [hfirst]
      rw [hany]
      by_cases hrest : ∀ p ∈ rest, p.seconds = true
      · have hnone : rest.any (fun p => !p.seconds) = false := by
          simpa using hrest
        simp only [hnone, Bool.false_eq_true, if_false, if_true, true_iff]
        exact Or.inr (Or.inr hrest)
      · have hsome : rest.any (fun p => !p.seconds) = true := by
          simpa using hrest
        simp only [hsome, if_true, hrest, or_false, Bool.true_eq_false]
        omega

/--
A message that was not stored ends with its send time, in every order and with
any repeats, exactly if it is a whole second, or the first projection knew
milliseconds, or none did.
-/
theorem createdAt_settles_iff
    (currentUid : Option Nat) (scope : Option String) (s : Store)
    (hnew : s.byServerId m.serverMessageId = none)
    (first : Int × Projection codec m) (rest : List (Int × Projection codec m))
    (hlocal : ∀ e ∈ first :: rest,
      s.byInputLocalId currentUid (e.2.input scope e.1) = none) :
    ((arriveAll currentUid scope s (first :: rest)).byServerId
        m.serverMessageId).map (fun row => row.createdAt) =
          some (m.settledMs ((first :: rest).map Prod.snd)) ↔
      m.sentAtMs % 1000 = 0 ∨ first.2.seconds = false ∨
        ∀ e ∈ rest, e.2.seconds = true := by
  obtain ⟨hid, hprecise, hbrings⟩ := first.2.input_eq scope first.1
  obtain ⟨row, hrow⟩ := SentRow.first first.1 m.serverMessageId_pos hid hprecise
    hnew (hlocal first List.mem_cons_self)
  rw [hbrings, ← first.2.arrive_eq] at hrow
  have hpos : 0 < first.2.bringsMs := by
    have hms := m.sentAt_ms
    unfold Projection.bringsMs
    split
    · omega
    · omega
  obtain ⟨row', hrow'⟩ := hrow.run hpos currentUid scope
    (fun e he => hlocal e (List.mem_cons_of_mem _ he))
  have hfound : (arriveAll currentUid scope s (first :: rest)).byServerId
      m.serverMessageId = some row' := hrow'.found
  rw [hfound, Option.map_some, Option.some.injEq, hrow'.createdAt, List.map_cons,
    bringsMs_eq_settledMs_iff, List.forall_mem_map]

/-- The message 900, sent at 1785148271317 ms, by its push and in a history page. -/
def sampleSent : SentMessage where
  serverMessageId := 900
  channelId := 10
  sentAtMs := 1785148271317
  serverMessageId_pos := by decide
  channelId_pos := by decide
  sentAt_ms := by decide
  sentAt_lt := sampleTime_lt

def samplePush : Projection sampleCodec sampleSent :=
  .push
    { serverMessageId := 900, localMessageId := 0, channelId := 10,
      channelType := 1, fromUid := 1, messageType := 0, messageSeq := 5,
      timestamp := 1785148271, needReceipt := false, deleted := false,
      payload := .text "hi" }
    rfl rfl rfl rfl

def sampleHistory : Projection sampleCodec sampleSent :=
  .history
    { messageId := 900, channelId := 10, senderId := 1, content := "hi",
      messageType := "text", timestamp := 1785148271317, messageSeq := some 5,
      metadata := none, revoked := false }
    1 rfl rfl

theorem createdAt_settles_history_first :
    ((arriveAll (some 2) none Store.empty
      [(1, sampleHistory), (2, samplePush)]).byServerId 900).map
        (fun row => row.createdAt) = some 1785148271317 := by
  exact (createdAt_settles_iff (some 2) none Store.empty rfl (1, sampleHistory)
    [(2, samplePush)] (by simp; exact ⟨rfl, rfl⟩)).mpr (Or.inr (Or.inl rfl))

/--
The push comes first and is stored as if it knew milliseconds: the history page
does not correct it any more.
-/
theorem push_freezes_createdAt :
    ((arriveAll (some 2) none Store.empty
      [(1, samplePush), (2, sampleHistory)]).byServerId 900).map
        (fun row => row.createdAt) = some 1785148271000 := by
  decide +kernel

end Order

end PrivchatSdk
