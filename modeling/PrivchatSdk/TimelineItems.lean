import PrivchatSdk.MessagePlaces
import PrivchatSdk.ProjectionRepair
import PrivchatSdk.SyncBranches
import PrivchatSdk.TimelineFrame

/-!
# What the items of the server change of a timeline

An item changes the timelines that hold its message, and an upsert besides the one that
it puts the message into.  `Codec.touches` says which these are for each family of items,
in terms of the item and of the store before it, and `Codec.names` which timelines are
reported once the item is applied: an upsert reports its timeline only if it inserts, an
extra only if it has a channel, and a status never.

An item keeps what it does not touch (`syncEntity_keeps`) and reports what it names
(`syncEntity_names`); both carry over to the items of a drain, and the first to the
messages of a history page.
-/

namespace PrivchatSdk

open StatementExec RelTable EventRun Receive Session
open Difference (ItemPayload readItem after_storeHistoryItems)

section Upserts

variable {currentUid : Option Nat} {key : ChannelCacheKey}
variable {input : UpsertRemoteMessageInput} {env : Env} {s s' : Store}

/-- The channel that an upsert puts its message into. -/
def UpsertRemoteMessageInput.channelKey (input : UpsertRemoteMessageInput) :
    ChannelCacheKey where
  channelId := input.channelId
  channelType := input.channelType

/-- An upsert finds the row, by the server id or by the local id. -/
def UpsertRemoteMessageInput.finds
    (input : UpsertRemoteMessageInput) (currentUid : Option Nat) (s : Store)
    (row : MessageRow) : Prop :=
  s.byServerId input.serverMessageId = some row ∨
    s.byInputLocalId currentUid input = some row

/-- The row that an upsert finds first is newer. -/
def UpsertRemoteMessageInput.isSkipped
    (input : UpsertRemoteMessageInput) (currentUid : Option Nat) (s : Store) : Bool :=
  ((s.byServerId input.serverMessageId).or
    (s.byInputLocalId currentUid input)).any input.stale

/-- The timelines that an upsert changes. -/
def UpsertRemoteMessageInput.touches
    (input : UpsertRemoteMessageInput) (currentUid : Option Nat)
    (key : ChannelCacheKey) (s : Store) : Prop :=
  input.isSkipped currentUid s = false ∧
    (input.channelKey = key ∨
      ∃ row, input.finds currentUid s row ∧ row.inChannel key = true)

/-- An upsert inserts its message. -/
def UpsertRemoteMessageInput.inserts
    (input : UpsertRemoteMessageInput) (currentUid : Option Nat) (s : Store) : Prop :=
  s.byServerId input.serverMessageId = none ∧ s.byInputLocalId currentUid input = none

theorem KeepsChannel.holds_iff
    (h : KeepsChannel key s s') (n : Nat) : s'.holds key n ↔ s.holds key n := by
  unfold Store.holds
  constructor
  · rintro ⟨r, hr, hid, hkey⟩
    exact ⟨r, (h.mem hkey).mp hr, hid, hkey⟩
  · rintro ⟨r, hr, hid, hkey⟩
    exact ⟨r, (h.mem hkey).mpr hr, hid, hkey⟩

theorem KeepsChannel.spares (h : KeepsChannel key s s') (n : Nat) : Spares n key s s' :=
  fun hn => ⟨h, fun hn' => hn ((h.holds_iff n).mp hn')⟩

/-- The revoke flag is written to the extra of one message. -/
theorem KeepsChannel.takeRevoke
    (h : KeepsChannel key s s') {n : Nat} (hn : ¬ s.holds key n)
    (input : UpsertRemoteMessageInput) (now : Int) :
    KeepsChannel key s (s'.takeRevoke n input now) := by
  unfold Store.takeRevoke
  split
  · have hflag : Spares n key s' _ := Spares.of_extra s' input.channelId
      input.channelType (revokeInsert now) (revokeUpdate now)
    exact h.trans s s' _ (hflag (fun hn' => hn ((h.holds_iff n).mp hn'))).1
  · exact h

/-- The row that is written is outside of a channel that is not touched. -/
theorem UpsertTarget.apart
    {base : Table MessageRow} {row : MessageRow}
    (htarget : UpsertTarget currentUid input s base row)
    (hn : ¬ input.touches currentUid key s) :
    input.channelKey ≠ key ∧ row.inChannel key = false ∧
      ∀ r : MessageRow, r.inChannel key = true →
        (r ∈ base.rows ↔ r ∈ s.message.rows) := by
  have hapart (hwritten : input.isSkipped currentUid s = false) :
      input.channelKey ≠ key ∧
        ∀ r, input.finds currentUid s r → r.inChannel key = false := by
    refine ⟨fun hkey => hn ⟨hwritten, Or.inl hkey⟩, fun r hr => ?_⟩
    rw [← Bool.not_eq_true]
    exact fun hkey => hn ⟨hwritten, Or.inr ⟨r, hr, hkey⟩⟩
  cases htarget with
  | byServerId _ hrow hfresh hlocal =>
      obtain ⟨hkey, hfound⟩ := hapart (by
        simp [UpsertRemoteMessageInput.isSkipped, hrow, hfresh])
      exact ⟨hkey, hfound row (Or.inl hrow), fun _ _ => Iff.rfl⟩
  | byLocalId _ hnone hrow hfresh =>
      obtain ⟨hkey, hfound⟩ := hapart (by
        simp [UpsertRemoteMessageInput.isSkipped, hnone, hrow, hfresh])
      exact ⟨hkey, hfound row (Or.inr hrow), fun _ _ => Iff.rfl⟩
  | merge drop _ hdrop hfresh hkeep hne =>
      obtain ⟨hkey, hfound⟩ := hapart (by
        simp [UpsertRemoteMessageInput.isSkipped, hdrop, hfresh])
      refine ⟨hkey, hfound row (Or.inr hkeep), fun r hr => ?_⟩
      rw [Table.mem_deleteWhere]
      refine ⟨fun h => h.1, fun h => ⟨h, ?_⟩⟩
      rw [beq_eq_false_iff_ne]
      intro hid
      have hdropped : drop ∈ s.message.rows := List.mem_of_find?_eq_some hdrop
      have hrow := s.message.rowid_inj h hdropped hid
      rw [hrow, hfound drop (Or.inl hdrop)] at hr
      cases hr

/-- An upsert keeps a channel that it does not touch. -/
theorem upsert_keeps
    (hn : ¬ input.touches currentUid key s)
    {res : Except StoreError UpsertRemoteMessageResult}
    (h : upsertRemoteMessageWithResult currentUid input env s = (res, s')) :
    KeepsChannel key s s' := by
  -- the rows of the channel after the row of the message was written
  have hupdated {base t : Table MessageRow} {row : MessageRow}
      (hpos : 0 < input.serverMessageId)
      (htarget : UpsertTarget currentUid input s base row)
      (ht : base.update (fun r => Record.rowid r == row.id)
        (input.overwrite env.now) (fun _ => rfl) = some t) :
      KeepsChannel key s { s with message := t } := by
    obtain ⟨hkey, hrow, hbase⟩ := htarget.apart hn
    refine KeepsChannel.of_mem (fun r hr => ?_) (fun _ _ _ => rfl)
    rw [← hbase r hr]
    constructor
    · intro hmem
      rcases mem_of_update ht hmem with ⟨r₀, -, -, rfl⟩ | ⟨hold, -⟩
      · exact absurd (MessageRow.inChannel_iff.mp hr) hkey
      · exact hold
    · intro hmem
      have hid : r.id ≠ row.id := by
        intro hid
        have heq := base.rowid_inj hmem (htarget.mem hpos).1 hid
        rw [heq, hrow] at hr
        cases hr
      rw [(Table.rows_of_update ht).1, Table.mem_updatedRows]
      exact ⟨r, hmem, if_neg (by simpa using hid)⟩
  have hinserted {t : Table MessageRow}
      (hnone : s.byServerId input.serverMessageId = none)
      (hnoneLocal : s.byInputLocalId currentUid input = none)
      (ht : s.message.insert (input.toRow env.now) (fun _ => rfl) =
        some (t, s.message.nextRowid)) :
      KeepsChannel key s { s with message := t } := by
    have hkey : input.channelKey ≠ key := fun hkey => hn
      ⟨by simp [UpsertRemoteMessageInput.isSkipped, hnone, hnoneLocal], Or.inl hkey⟩
    exact KeepsChannel.of_insert ht hkey s.outbox
  cases upsert_outcome h with
  | failed e he =>
      exact KeepsChannel.refl key s
  | stale row hpos hrow hstale =>
      exact KeepsChannel.refl key s
  | dropped e base row he hpos htarget =>
      exact KeepsChannel.of_mem (htarget.apart hn).2.2 (fun _ _ _ => rfl)
  | unflagged e base t row he hpos htarget ht hrevoked =>
      exact hupdated hpos htarget ht
  | written base t row hpos htarget ht =>
      refine (hupdated hpos htarget ht).takeRevoke ?_ input env.now
      rintro ⟨r, hr, hid, hkey⟩
      have heq := s.message.rowid_inj hr (htarget.mem hpos).2.1 hid
      rw [heq, (htarget.apart hn).2.1] at hkey
      cases hkey
  | insertedUnflagged e t he hpos hnone hnoneLocal ht hrevoked =>
      exact hinserted hnone hnoneLocal ht
  | inserted t hpos hnone hnoneLocal ht =>
      refine (hinserted hnone hnoneLocal ht).takeRevoke ?_ input env.now
      rintro ⟨r, hr, hid, -⟩
      exact absurd hid (Nat.ne_of_lt (s.message.rowid_lt r hr))

/-- An upsert that finds no row reports a new message. -/
theorem insertedNew_of_inserts
    (hinserts : input.inserts currentUid s) {v : UpsertRemoteMessageResult}
    (h : upsertRemoteMessageWithResult currentUid input env s = (.ok v, s')) :
    v.insertedNew = true := by
  obtain ⟨hnone, hnoneLocal⟩ := hinserts
  cases upsert_outcome h with
  | stale row hpos hrow hstale =>
      rcases hrow with hrow | ⟨-, hrow⟩
      · cases hnone.symm.trans hrow
      · cases hnoneLocal.symm.trans hrow
  | written base t row hpos htarget ht =>
      cases htarget with
      | byServerId _ hrow hfresh hlocal =>
          cases hnone.symm.trans hrow
      | byLocalId _ hnone' hrow hfresh =>
          cases hnoneLocal.symm.trans hrow
      | merge drop _ hdrop hfresh hkeep hne =>
          cases hnone.symm.trans hdrop
  | inserted t hpos hnone hnoneLocal ht =>
      rfl

end Upserts

section Touches

/-- A row of the channel has the server id. -/
def Store.holdsServerId
    (s : Store) (key : ChannelCacheKey) (serverMessageId : Nat) : Prop :=
  ∃ r ∈ s.message.rows,
    r.serverMessageId = some serverMessageId ∧ r.inChannel key = true

/-- The row id that `resolveMessageId` comes to. -/
def Store.resolvedId
    (s : Store) (channelId : Nat) (channelType : Int) (raw : Nat) : Nat :=
  if 0 < channelId then
    ((s.message.rows.find? (fun r =>
      r.serverMessageId == some raw && r.channelId == channelId &&
        r.channelType == channelType)).map (fun r => r.id)).getD raw
  else
    raw

/-- The channel type that a status names, or that of its scope. -/
def MessageStatusSyncPayload.itemChannelType
    (p : MessageStatusSyncPayload) (scope : Option String) : Int :=
  ((((p.channelType.or p.typeField).or p.conversationType).or
    ((parseChannelScope scope).map Prod.fst)).map
      (fun v => if v = 0 then 1 else v)).getD 1

/-- The channel that a status names, or that of its scope. -/
def MessageStatusSyncPayload.itemChannelId
    (p : MessageStatusSyncPayload) (scope : Option String) : Nat :=
  (p.channelId.or ((parseChannelScope scope).map Prod.snd)).getD 0

/-- The extra revokes or edits its message; a pin alone is not shown. -/
def Codec.showsExtra (codec : Codec) (payload : Json) : Bool :=
  payload.containsKey "revoke" || payload.containsKey "is_revoked" ||
    (codec.jsonGetString payload ["content_edit", "edited_content"]).isSome

/-- The channel that an item names for its timeline. -/
def itemChannelKey (scope : Option String) (payload : Json) : ChannelCacheKey where
  channelId := itemChannelId scope payload
  channelType := itemChannelType scope payload

variable (codec : Codec) (statusPayload : Json → MessageStatusSyncPayload)
variable (currentUid : Option Nat)

/-- The timelines that a `message` item changes. -/
def Codec.messageTouches
    (scope : Option String) (item : SyncEntityItem MessageSyncPayload) (env : Env)
    (s : Store) (key : ChannelCacheKey) : Prop :=
  match codec.messageItemAction scope env.now item with
  | .skip => False
  | .revoke serverMessageId _ => s.holdsServerId key serverMessageId
  | .upsert input => input.touches currentUid key s

/-- The timelines that a `message` item has reported. -/
def Codec.messageNames
    (scope : Option String) (item : SyncEntityItem MessageSyncPayload) (env : Env)
    (s : Store) (key : ChannelCacheKey) : Prop :=
  match codec.messageItemAction scope env.now item with
  | .skip => False
  | .revoke serverMessageId _ => s.holdsServerId key serverMessageId
  | .upsert input => input.inserts currentUid s ∧ input.channelKey = key

/-- The timelines that a `message_extra` item changes. -/
def Codec.extraTouches
    (scope : Option String) (item : SyncEntityItem Json) (s : Store)
    (key : ChannelCacheKey) : Prop :=
  rawMessageId item ≠ 0 ∧ codec.showsExtra (itemPayload item) = true ∧
    s.holds key (s.resolvedId (itemChannelId scope (itemPayload item))
      (itemChannelType scope (itemPayload item)) (rawMessageId item))

/-- The timelines that a `message_status` item changes; its lookup may fail. -/
def statusTouches
    (scope : Option String) (item : SyncEntityItem MessageStatusSyncPayload)
    (env : Env) (s : Store) (key : ChannelCacheKey) : Prop :=
  let p := item.payload.getD .default
  let raw := rawStatusMessageId item
  raw ≠ 0 ∧ p.status.isSome = true ∧
    s.holds key
      (if env.fault "get message id by server_message_id" then raw
      else s.resolvedId (p.itemChannelId scope) (p.itemChannelType scope) raw)

/-- The timelines that a `message_reaction` item has reported. -/
def Codec.reactionNames
    (scope : Option String) (item : SyncEntityItem Json) (s : Store)
    (key : ChannelCacheKey) : Prop :=
  let payload := itemPayload item
  let raw := rawMessageId item
  let messageId := if 0 < raw then
    s.resolvedId (itemChannelId scope payload) (itemChannelType scope payload) raw
  else raw
  ¬ (messageId = 0 ∨ itemChannelId scope payload = 0 ∨
      (jsonGetU64 payload ["uid", "user_id", "sender_id"]).getD 0 = 0 ∨
      (codec.jsonGetString payload ["emoji"]).getD "" = "") ∧
    itemChannelKey scope payload = key

/-- The timelines that the item of a turn changes. -/
def Codec.touches
    (turn : Env × Entry ItemPayload) (s : Store) (key : ChannelCacheKey) : Prop :=
  let e := turn.2
  if e.entityType = "message" then
    codec.messageTouches currentUid e.scope (readItem ItemPayload.asMessage e.item)
      turn.1 s key
  else if e.entityType ∈ ["message_extra", "message_ext"] then
    codec.extraTouches e.scope (readItem ItemPayload.asValue e.item) s key
  else if e.entityType ∈ ["message_status", "message_read_status"] then
    statusTouches e.scope
      (statusItem statusPayload (readItem ItemPayload.asValue e.item)) turn.1 s key
  else
    False

/-- The timelines that the item of a turn has reported, once it is applied. -/
def Codec.names
    (turn : Env × Entry ItemPayload) (s : Store) (key : ChannelCacheKey) : Prop :=
  let e := turn.2
  let item := readItem ItemPayload.asValue e.item
  if e.entityType = "message" then
    codec.messageNames currentUid e.scope (readItem ItemPayload.asMessage e.item)
      turn.1 s key
  else if e.entityType ∈ ["message_extra", "message_ext"] then
    rawMessageId item ≠ 0 ∧ 0 < itemChannelId e.scope (itemPayload item) ∧
      itemChannelKey e.scope (itemPayload item) = key
  else if e.entityType ∈ ["message_reaction", "reaction"] then
    codec.reactionNames e.scope item s key
  else if e.entityType ∈ ["mention", "message_mention"] then
    ¬ (rawMessageId item = 0 ∨ itemChannelId e.scope (itemPayload item) = 0 ∨
        (jsonGetU64 (itemPayload item)
          ["mentioned_user_id", "uid", "user_id"]).getD 0 = 0) ∧
      itemChannelKey e.scope (itemPayload item) = key
  else
    False

end Touches

section Branches

variable {codec : Codec} {statusPayload : Json → MessageStatusSyncPayload}
variable {currentUid : Option Nat} {key : ChannelCacheKey} {env : Env} {s s' : Store}

theorem outside_of_not_holdsServerId
    {serverMessageId : Nat} (h : ¬ s.holdsServerId key serverMessageId) :
    ∀ r ∈ s.message.rows, r.serverMessageId = some serverMessageId →
      r.inChannel key = false := by
  intro r hr hsid
  rw [← Bool.not_eq_true]
  exact fun hkey => h ⟨r, hr, hsid, hkey⟩

/-- The store after the rows with a server id were revoked. -/
def Store.revokedRows (s : Store) (serverMessageId : Nat) (now : Int) : Store :=
  { s with
    message := s.message.modify (fun r => r.serverMessageId == some serverMessageId)
      (MessageRow.tombstone now) (MessageRow.rowid_tombstone now)
      (MessageRow.keys_tombstone now) }

theorem Store.rows_revokedRows (s : Store) (serverMessageId : Nat) (now : Int) :
    (s.revokedRows serverMessageId now).message.rows =
      s.message.updatedRows (fun r => r.serverMessageId == some serverMessageId)
        (MessageRow.tombstone now) := by
  rfl

theorem updateRevokedByServerId_cases
    {serverMessageId : Nat} {now : Int} {res : Except StoreError Nat}
    (h : updateRevokedByServerId serverMessageId true now env s = (res, s')) :
    (∃ e, res = .error e ∧ s' = s) ∨
      (res = .ok (s.message.rows.countP
          (fun r => r.serverMessageId == some serverMessageId)) ∧
        s' = s.revokedRows serverMessageId now) := by
  unfold updateRevokedByServerId at h
  rw [if_pos rfl] at h
  cases res with
  | error e =>
      exact Or.inl ⟨e, rfl, (modifyMessage_error h).1⟩
  | ok n =>
      obtain ⟨-, rfl, rfl⟩ := modifyMessage_ok.mp h
      exact Or.inr ⟨rfl, rfl⟩

theorem revokedRows_keeps
    {serverMessageId : Nat} (hn : ¬ s.holdsServerId key serverMessageId) (now : Int) :
    KeepsChannel key s (s.revokedRows serverMessageId now) := by
  have houtside := outside_of_not_holdsServerId hn
  refine KeepsChannel.of_mem (fun r hkey => ?_) (fun _ _ _ => rfl)
  rw [Store.rows_revokedRows, Table.mem_updatedRows]
  constructor
  · rintro ⟨r₀, hr₀, rfl⟩
    split at hkey
    · rename_i hsid
      have hout : (MessageRow.tombstone now r₀).inChannel key = false :=
        houtside r₀ hr₀ (by simpa using hsid)
      rw [hout] at hkey
      cases hkey
    · rename_i hsid
      rw [if_neg hsid]
      exact hr₀
  · intro hr
    refine ⟨r, hr, if_neg ?_⟩
    intro hsid
    rw [houtside r hr (by simpa using hsid)] at hkey
    cases hkey

/-- A revoke by server id writes the rows that have it, and the extra of one of them. -/
theorem setMessageRevokeByServerMessageId_keeps
    {serverMessageId : Nat} (hn : ¬ s.holdsServerId key serverMessageId)
    {revoker : Option Nat} {res : Except StoreError (Option StoredMessage)}
    (h : setMessageRevokeByServerMessageId serverMessageId true revoker env s =
      (res, s')) :
    KeepsChannel key s s' := by
  have hrows := revokedRows_keeps hn env.now
  unfold setMessageRevokeByServerMessageId at h
  rw [nowMs_bind, Exec.bind_run] at h
  split at h
  · rename_i updated s₁ hm
    rcases updateRevokedByServerId_cases hm with ⟨e, he, -⟩ | ⟨-, rfl⟩
    · cases he
    split at h
    · cases h
      exact hrows
    rw [Exec.bind_run] at h
    split at h
    · rename_i row s₂ hq
      obtain ⟨-, hrow, rfl⟩ := queryRow_ok.mp hq
      have hout : ¬ (s.revokedRows serverMessageId env.now).holds key row.id := by
        rintro ⟨r, hr, hid, hkey⟩
        have heq := Table.rowid_inj _ hr (List.mem_of_find?_eq_some hrow) hid
        subst heq
        have hmem := (hrows.mem hkey).mp hr
        have hsid : r.serverMessageId = some serverMessageId := by
          simpa using List.find?_some hrow
        exact hn ⟨r, hmem, hsid, hkey⟩
      refine KeepsChannel.trans s _ s' hrows ?_
      have hrest : Exec.Relates (Spares row.id key) (do
          exec "set message revoke by server id" (fun s =>
            { s with
              messageExtra := upsertedExtra s.messageExtra row.id row.channelId
                row.channelType (revokeWrite true revoker env.now)
                (revokeWriteMax true revoker env.now) })
          getMessageById row.id) :=
        Exec.Relates.bind Spares.trans
          (relates_exec (Spares.refl row.id key) _
            (fun s => Spares.of_extra s _ _ _ _))
          (fun _ => relates_query (Spares.refl row.id key) _ _)
      have hspares := hrest env _ hout
      unfold Exec.after at hspares
      rw [h] at hspares
      exact hspares.1
    · rename_i e s₂ hq
      cases h
      cases (queryRow_error hq).1
      exact hrows
  · rename_i e s₁ hm
    cases h
    rcases updateRevokedByServerId_cases hm with ⟨_, -, rfl⟩ | ⟨he, -⟩
    · exact KeepsChannel.refl key _
    · cases he

theorem storedMessage_of_mem {row : MessageRow} (h : row ∈ s.message.rows) :
    s.storedMessage row.id = some (row.toStored (s.messageExtra.lookup row.id)) := by
  have hrow : s.message.byRowid row.id = some row :=
    (Table.byRowid_eq_some_iff _ _ _).mpr ⟨h, rfl⟩
  unfold Store.storedMessage
  rw [hrow]
  rfl

/-- A revoke that succeeds reports the channel of its message. -/
theorem setMessageRevokeByServerMessageId_names
    {serverMessageId : Nat} (hpos : 0 < serverMessageId)
    (hholds : s.holdsServerId key serverMessageId)
    {revoker : Option Nat} {found : Option StoredMessage}
    (h : setMessageRevokeByServerMessageId serverMessageId true revoker env s =
      (.ok found, s')) :
    ∃ m, found = some m ∧ m.channelKey = key := by
  obtain ⟨r, hr, hsid, hkey⟩ := hholds
  have hself : (r.serverMessageId == some serverMessageId) = true := by simp [hsid]
  unfold setMessageRevokeByServerMessageId at h
  rw [nowMs_bind] at h
  obtain ⟨updated, s₁, hm, hrest⟩ := Exec.bind_ok.mp h
  rcases updateRevokedByServerId_cases hm with ⟨e, he, -⟩ | ⟨hupdated, rfl⟩
  · cases he
  cases hupdated
  have hcount : s.message.rows.countP
      (fun r => r.serverMessageId == some serverMessageId) ≠ 0 := by
    rw [← Nat.pos_iff_ne_zero, List.countP_pos_iff]
    exact ⟨r, hr, hself⟩
  rw [if_neg hcount] at hrest
  obtain ⟨row, s₂, hq, hrest⟩ := Exec.bind_ok.mp hrest
  obtain ⟨-, hrow, rfl⟩ := queryRow_ok.mp hq
  obtain ⟨u, s₃, hw, hrest⟩ := Exec.bind_ok.mp hrest
  obtain ⟨-, rfl⟩ := exec_ok.mp hw
  obtain ⟨-, rfl, -⟩ := query_ok.mp hrest
  -- the row that is found is that of the message, since the server id is unique
  have hwritten : MessageRow.tombstone env.now r ∈
      (s.revokedRows serverMessageId env.now).message.rows := by
    rw [Store.rows_revokedRows, Table.mem_updatedRows]
    exact ⟨r, hr, if_pos hself⟩
  have heq := eq_of_byServerId hpos hrow hwritten hsid
  have hmem := (Store.byServerId_eq_some_iff _ hpos row).mp hrow
  refine ⟨_, storedMessage_of_mem (by exact hmem.1), ?_⟩
  change row.channelKey = key
  rw [← heq]
  exact MessageRow.inChannel_iff.mp hkey

/-- A message item keeps what it does not touch. -/
theorem syncMessageItem_keeps
    {bump : Bool} {scope : Option String} {item : SyncEntityItem MessageSyncPayload}
    (hn : ¬ codec.messageTouches currentUid scope item env s key) :
    KeepsChannel key s
      ((codec.syncMessageItem currentUid bump scope item).after env s) := by
  unfold Codec.messageTouches at hn
  unfold Codec.syncMessageItem Exec.after
  rw [nowMs_bind]
  change KeepsChannel key s (Exec.after _ env s)
  cases haction : codec.messageItemAction scope env.now item with
  | skip =>
      exact KeepsChannel.refl key s
  | revoke serverMessageId revoker =>
      rw [haction] at hn
      dsimp only
      rw [Exec.after_map]
      exact setMessageRevokeByServerMessageId_keeps hn rfl
  | upsert input =>
      rw [haction] at hn
      dsimp only
      rw [Exec.after_map]
      exact upsert_keeps hn rfl

theorem resolveMessageId_cases
    {channelId : Nat} {channelType : Int} {raw : Nat} {res : Except StoreError Nat}
    (h : resolveMessageId channelId channelType raw env s = (res, s')) :
    s' = s ∧ ∀ n, res = .ok n → n = s.resolvedId channelId channelType raw := by
  unfold resolveMessageId at h
  unfold Store.resolvedId
  split at h
  · rename_i hpos
    rw [if_pos hpos]
    cases res with
    | error e =>
        rcases Exec.bind_error.mp h with hq | ⟨found, s₁, -, hrest⟩
        · exact ⟨(query_error hq).1, nofun⟩
        · cases hrest
    | ok n =>
        obtain ⟨found, s₁, hq, hrest⟩ := Exec.bind_ok.mp h
        obtain ⟨-, rfl, rfl⟩ := query_ok.mp hq
        cases hrest
        exact ⟨rfl, fun n hn => by cases hn; rfl⟩
  · rename_i hpos
    rw [if_neg hpos]
    cases h
    exact ⟨rfl, fun n hn => by cases hn; rfl⟩

/-- The lookup of a status finds nothing if it fails. -/
theorem resolveStatusMessageId_run
    (channelId : Nat) (channelType : Int) (raw : Nat) (env : Env) (s : Store) :
    resolveStatusMessageId channelId channelType raw env s =
      (.ok (if env.fault "get message id by server_message_id" then raw
        else s.resolvedId channelId channelType raw), s) := by
  unfold resolveStatusMessageId Store.resolvedId
  by_cases hpos : 0 < channelId
  · rw [if_pos hpos, if_pos hpos, Exec.bind_run]
    unfold Exec.attempt
    cases hq : getMessageIdByServerMessageId channelId channelType raw env s with
    | mk res s₁ =>
    cases res with
    | error e =>
        unfold getMessageIdByServerMessageId query at hq
        obtain ⟨rfl, ⟨hfault, -⟩ | ⟨cause, hc, -⟩⟩ := stmt_error hq
        · rw [if_pos hfault]
          rfl
        · cases hc
    | ok found =>
        obtain ⟨hfault, hfound, rfl⟩ := query_ok.mp hq
        rw [if_neg (by simp [hfault]), hfound]
        cases found with
        | none =>
            rfl
        | some n =>
            rfl
  · rw [if_neg hpos, if_neg hpos, ite_self]
    rfl

theorem spares_applyExtraRevoke (payload : Json) (n : Nat) :
    (applyExtraRevoke payload n).Relates (Spares n key) :=
  Exec.Relates.ite (spares_setMessageRevoke key n _ _)
    (Exec.relates_pure (Spares.refl n key) _)

theorem spares_applyExtraEdit (payload : Json) (n : Nat) :
    (codec.applyExtraEdit payload n).Relates (Spares n key) := by
  unfold Codec.applyExtraEdit
  split
  · exact Exec.Relates.bind Spares.trans (relates_nowMs (Spares.refl n key))
      (fun _ => spares_editMessage key n _ _)
  · exact Exec.relates_pure (Spares.refl n key) _

/-- A pin keeps every channel. -/
theorem keeps_applyExtraPin (payload : Json) (n : Nat) :
    (applyExtraPin payload n).Relates (KeepsChannel key) := by
  refine Exec.Relates.ite ?_ (Exec.relates_pure (KeepsChannel.refl key) _)
  intro env s
  exact setMessagePinned_keeps rfl

/-- What is shown of the message is changed by a revoke or an edit only. -/
theorem keeps_extra
    (payload : Json) (n : Nat) (events : List SdkEvent)
    (hn : codec.showsExtra payload = true → ¬ s.holds key n) :
    KeepsChannel key s ((do
      applyExtraRevoke payload n
      codec.applyExtraEdit payload n
      applyExtraPin payload n
      pure events : StoreM (List SdkEvent)).after env s) := by
  cases hshows : codec.showsExtra payload with
  | true =>
      have hspares : Exec.Relates (Spares n key) (do
          applyExtraRevoke payload n
          codec.applyExtraEdit payload n
          applyExtraPin payload n
          pure events : StoreM (List SdkEvent)) := by
        refine Exec.Relates.bind Spares.trans (spares_applyExtraRevoke payload n)
          (fun _ => ?_)
        refine Exec.Relates.bind Spares.trans (spares_applyExtraEdit payload n)
          (fun _ => ?_)
        refine Exec.Relates.bind Spares.trans
          (fun env s => (keeps_applyExtraPin payload n env s).spares n) (fun _ => ?_)
        exact Exec.relates_pure (Spares.refl n key) _
      exact (hspares env s (hn hshows)).1
  | false =>
      simp only [Codec.showsExtra, Bool.or_eq_false_iff, Option.isSome_eq_false_iff,
        Option.isNone_iff_eq_none] at hshows
      have hrevoke : applyExtraRevoke payload n = pure .unit := by
        unfold applyExtraRevoke
        rw [if_neg (by simp [hshows.1])]
      have hedit : codec.applyExtraEdit payload n = pure .unit := by
        unfold Codec.applyExtraEdit
        rw [hshows.2]
      rw [hrevoke, hedit]
      exact (Exec.Relates.bind (KeepsChannel.trans) (keeps_applyExtraPin payload n)
        (fun _ => Exec.relates_pure (KeepsChannel.refl key) events)) env s

/-- An extra item keeps what it does not touch. -/
theorem syncExtraItem_keeps
    {scope : Option String} {item : SyncEntityItem Json}
    (hn : ¬ codec.extraTouches scope item s key) :
    KeepsChannel key s ((codec.syncExtraItem scope item).after env s) := by
  unfold Codec.syncExtraItem
  dsimp only
  split
  · exact KeepsChannel.refl key s
  · rename_i hraw
    unfold Exec.after
    rw [Exec.bind_run]
    split
    · rename_i n s₁ hresolved
      obtain ⟨rfl, hid⟩ := resolveMessageId_cases hresolved
      refine keeps_extra (itemPayload item) n _ ?_
      intro hshows hholds
      rw [hid n rfl] at hholds
      exact hn ⟨hraw, hshows, hholds⟩
    · rename_i e s₁ hresolved
      rw [(resolveMessageId_cases hresolved).1]
      exact KeepsChannel.refl key s

/-- A status item keeps what it does not touch. -/
theorem syncStatusItem_keeps
    {scope : Option String} {item : SyncEntityItem MessageStatusSyncPayload}
    (hn : ¬ statusTouches scope item env s key) :
    KeepsChannel key s ((syncStatusItem scope item).after env s) := by
  unfold syncStatusItem
  dsimp only
  split
  · exact KeepsChannel.refl key s
  · rename_i hraw
    unfold Exec.after
    rw [Exec.bind_run, resolveStatusMessageId_run]
    dsimp only
    cases hstatus : (item.payload.getD .default).status with
    | none =>
        exact KeepsChannel.refl key s
    | some status =>
        have hspares := spares_updateMessageStatus key
          (if env.fault "get message id by server_message_id" then
            rawStatusMessageId item
          else
            s.resolvedId ((item.payload.getD .default).itemChannelId scope)
              ((item.payload.getD .default).itemChannelType scope)
              (rawStatusMessageId item)) status env s
        exact (hspares (fun hholds => hn ⟨hraw, by simp [hstatus], hholds⟩)).1

/-- Tables that no timeline is made of may be written. -/
def SameTimelines (s s' : Store) : Prop :=
  s'.message = s.message ∧ s'.messageExtra = s.messageExtra

theorem SameTimelines.refl (s : Store) : SameTimelines s s :=
  ⟨rfl, rfl⟩

theorem SameTimelines.trans
    (s t u : Store) (h : SameTimelines s t) (h' : SameTimelines t u) :
    SameTimelines s u :=
  ⟨h'.1.trans h.1, h'.2.trans h.2⟩

theorem sameTimelines_resolveMessageId (channelId : Nat) (channelType : Int) (raw : Nat) :
    (resolveMessageId channelId channelType raw).Relates SameTimelines := by
  refine Exec.Relates.ite ?_ (Exec.relates_pure SameTimelines.refl _)
  exact Exec.Relates.bind SameTimelines.trans (relates_query SameTimelines.refl _ _)
    (fun _ => Exec.relates_pure SameTimelines.refl _)

theorem sameTimelines_syncReactionItem
    (scope : Option String) (item : SyncEntityItem Json) :
    (codec.syncReactionItem scope item).Relates SameTimelines := by
  have hrefl := SameTimelines.refl
  refine Exec.Relates.bind SameTimelines.trans ?_ (fun messageId => ?_)
  · exact Exec.Relates.ite (sameTimelines_resolveMessageId _ _ _)
      (Exec.relates_pure hrefl _)
  refine Exec.Relates.ite (Exec.relates_pure hrefl _) ?_
  refine Exec.Relates.bind SameTimelines.trans (relates_nowMs hrefl) (fun now => ?_)
  exact Exec.Relates.bind SameTimelines.trans
    (relates_exec hrefl _ (fun _ => ⟨rfl, rfl⟩)) (fun _ => Exec.relates_pure hrefl _)

theorem sameTimelines_syncMentionItem
    (scope : Option String) (item : SyncEntityItem Json) :
    (syncMentionItem scope item).Relates SameTimelines := by
  have hrefl := SameTimelines.refl
  refine Exec.Relates.bind SameTimelines.trans ?_ (fun _ => ?_)
  · refine Exec.Relates.ite (Exec.relates_pure hrefl _) ?_
    refine Exec.Relates.bind SameTimelines.trans (relates_nowMs hrefl) (fun now => ?_)
    refine Exec.Relates.bind SameTimelines.trans
      (relates_exec hrefl _ (fun _ => ⟨rfl, rfl⟩)) (fun _ => ?_)
    refine Exec.Relates.ite ?_ (Exec.relates_pure hrefl _)
    exact Exec.Relates.bind SameTimelines.trans
      (Exec.Relates.attempt (relates_exec hrefl _ (fun _ => ⟨rfl, rfl⟩)))
      (fun _ => Exec.relates_pure hrefl _)
  · exact Exec.Relates.ite (Exec.relates_pure hrefl _) (Exec.relates_pure hrefl _)

theorem sameTimelines_syncReminderItem
    (scope : Option String) (item : SyncEntityItem Json) :
    (codec.syncReminderItem scope item).Relates SameTimelines := by
  have hrefl := SameTimelines.refl
  refine Exec.Relates.bind SameTimelines.trans ?_ (fun _ => ?_)
  · refine Exec.Relates.ite (Exec.relates_pure hrefl _) ?_
    refine Exec.Relates.bind SameTimelines.trans
      (relates_exec hrefl _ (fun _ => ⟨rfl, rfl⟩)) (fun _ => ?_)
    refine Exec.Relates.ite ?_ (Exec.relates_pure hrefl _)
    exact Exec.Relates.bind SameTimelines.trans
      (Exec.Relates.attempt (relates_exec hrefl _ (fun _ => ⟨rfl, rfl⟩)))
      (fun _ => Exec.relates_pure hrefl _)
  · exact Exec.Relates.ite (Exec.relates_pure hrefl _) (Exec.relates_pure hrefl _)

theorem SameTimelines.keeps (h : SameTimelines s s') : KeepsChannel key s s' :=
  KeepsChannel.of_same h.1 h.2

/-- An item keeps every timeline that it does not touch. -/
theorem syncEntity_keeps
    {bump : Bool} {turn : Env × Entry ItemPayload}
    (hn : ¬ codec.touches statusPayload currentUid turn s key) :
    KeepsChannel key s (codec.afterTurn statusPayload currentUid bump s turn) := by
  unfold Codec.touches at hn
  unfold Codec.afterTurn Codec.syncEntity
  dsimp only at hn
  by_cases hmessage : turn.2.entityType = "message"
  · rw [if_pos hmessage] at hn ⊢
    exact syncMessageItem_keeps hn
  rw [if_neg hmessage] at hn ⊢
  by_cases hextra : turn.2.entityType ∈ ["message_extra", "message_ext"]
  · rw [if_pos hextra] at hn ⊢
    exact syncExtraItem_keeps hn
  rw [if_neg hextra] at hn ⊢
  split
  · exact (sameTimelines_syncReactionItem _ _ turn.1 s).keeps
  split
  · exact (sameTimelines_syncMentionItem _ _ turn.1 s).keeps
  split
  · exact (sameTimelines_syncReminderItem _ _ turn.1 s).keeps
  split
  · rename_i hstatus
    rw [if_pos hstatus] at hn
    exact syncStatusItem_keeps hn
  split
  · have hother : Exec.Relates SameTimelines (do
        exec ("apply " ++ turn.2.entityType) (fun s => s)
        pure [] : StoreM (List SdkEvent)) :=
      Exec.Relates.bind SameTimelines.trans
        (relates_exec SameTimelines.refl _ SameTimelines.refl)
        (fun _ => Exec.relates_pure SameTimelines.refl _)
    exact (hother turn.1 s).keeps
  · exact KeepsChannel.refl key s

end Branches

section Reports

variable {codec : Codec} {statusPayload : Json → MessageStatusSyncPayload}
variable {currentUid : Option Nat} {key : ChannelCacheKey} {env : Env} {s s' : Store}
variable {events : List SdkEvent}

/-- The events report a change of the timeline. -/
def Reports (key : ChannelCacheKey) (events : List SdkEvent) : Prop :=
  ∃ messageId reason,
    SdkEvent.timelineUpdated key.channelId key.channelType messageId reason ∈ events

theorem messageItemAction_revoke_pos
    {scope : Option String} {now : Int} {item : SyncEntityItem MessageSyncPayload}
    {serverMessageId : Nat} {revoker : Option Nat}
    (h : codec.messageItemAction scope now item = .revoke serverMessageId revoker) :
    0 < serverMessageId := by
  unfold Codec.messageItemAction at h
  dsimp only at h
  split at h
  · cases h
  rename_i hid
  split at h
  · cases h
    exact Nat.pos_of_ne_zero hid
  · split at h
    · cases h
    · cases h

theorem syncMessageItem_names
    {bump : Bool} {scope : Option String} {item : SyncEntityItem MessageSyncPayload}
    (hnames : codec.messageNames currentUid scope item env s key)
    (h : codec.syncMessageItem currentUid bump scope item env s = (.ok events, s')) :
    Reports key events := by
  unfold Codec.messageNames at hnames
  unfold Codec.syncMessageItem at h
  rw [nowMs_bind] at h
  cases haction : codec.messageItemAction scope env.now item with
  | skip =>
      rw [haction] at hnames
      cases hnames
  | revoke serverMessageId revoker =>
      rw [haction] at hnames h
      have hpos : 0 < serverMessageId := messageItemAction_revoke_pos haction
      obtain ⟨found, s₁, hrevoked, hrest⟩ := Exec.bind_ok.mp h
      obtain ⟨m, rfl, rfl⟩ :=
        setMessageRevokeByServerMessageId_names hpos hnames hrevoked
      cases hrest
      exact ⟨m.messageId, "sync_entity_deleted", by simp [StoredMessage.channelKey]⟩
  | upsert input =>
      rw [haction] at hnames h
      obtain ⟨hinserts, rfl⟩ := hnames
      obtain ⟨upserted, s₁, hupserted, hrest⟩ := Exec.bind_ok.mp h
      cases hrest
      have hnew := insertedNew_of_inserts hinserts hupserted
      refine ⟨upserted.messageId, timelineReasonForMessage bump, ?_⟩
      simp [upsertEvents, hnew, UpsertRemoteMessageInput.channelKey]

theorem syncExtraItem_names
    {scope : Option String} {item : SyncEntityItem Json}
    (hraw : rawMessageId item ≠ 0) (hchannel : 0 < itemChannelId scope (itemPayload item))
    (h : codec.syncExtraItem scope item env s = (.ok events, s')) :
    Reports (itemChannelKey scope (itemPayload item)) events := by
  unfold Codec.syncExtraItem at h
  rw [if_neg hraw] at h
  obtain ⟨messageId, s₁, -, h⟩ := Exec.bind_ok.mp h
  obtain ⟨-, s₂, -, h⟩ := Exec.bind_ok.mp h
  obtain ⟨-, s₃, -, h⟩ := Exec.bind_ok.mp h
  obtain ⟨-, s₄, -, h⟩ := Exec.bind_ok.mp h
  cases h
  refine ⟨messageId, "message_extra_sync", ?_⟩
  rw [if_pos hchannel]
  exact List.mem_cons_of_mem _ List.mem_cons_self

theorem syncReactionItem_names
    {scope : Option String} {item : SyncEntityItem Json}
    (hnames : codec.reactionNames scope item s key)
    (h : codec.syncReactionItem scope item env s = (.ok events, s')) :
    Reports key events := by
  obtain ⟨hshown, rfl⟩ := hnames
  unfold Codec.syncReactionItem at h
  dsimp only at h
  obtain ⟨messageId, s₁, hresolved, h⟩ := Exec.bind_ok.mp h
  have hid : messageId = if 0 < rawMessageId item then
      s.resolvedId (itemChannelId scope (itemPayload item))
        (itemChannelType scope (itemPayload item)) (rawMessageId item)
      else rawMessageId item := by
    split at hresolved
    · rename_i hpos
      rw [if_pos hpos]
      exact (resolveMessageId_cases hresolved).2 messageId rfl
    · rename_i hpos
      rw [if_neg hpos]
      cases hresolved
      rfl
  rw [hid, if_neg hshown] at h
  obtain ⟨now, s₂, -, h⟩ := Exec.bind_ok.mp h
  obtain ⟨-, s₃, -, h⟩ := Exec.bind_ok.mp h
  cases h
  exact ⟨_, "reaction_sync", List.mem_cons_of_mem _ List.mem_cons_self⟩

theorem syncMentionItem_names
    {scope : Option String} {item : SyncEntityItem Json}
    (hshown : ¬ (rawMessageId item = 0 ∨ itemChannelId scope (itemPayload item) = 0 ∨
      (jsonGetU64 (itemPayload item)
        ["mentioned_user_id", "uid", "user_id"]).getD 0 = 0))
    (h : syncMentionItem scope item env s = (.ok events, s')) :
    Reports (itemChannelKey scope (itemPayload item)) events := by
  unfold syncMentionItem at h
  obtain ⟨-, s₁, -, h⟩ := Exec.bind_ok.mp h
  rw [if_neg hshown] at h
  cases h
  exact ⟨_, "mention_sync", List.mem_cons_of_mem _ List.mem_cons_self⟩

/-- An item that is applied reports the timelines that it names. -/
theorem syncEntity_names
    {bump : Bool} {turn : Env × Entry ItemPayload}
    (hnames : codec.names currentUid turn s key)
    (h : codec.syncEntity statusPayload currentUid bump turn.2 turn.1 s =
      (.ok events, s')) :
    Reports key events := by
  unfold Codec.names at hnames
  unfold Codec.syncEntity at h
  dsimp only at hnames
  by_cases hmessage : turn.2.entityType = "message"
  · rw [if_pos hmessage] at hnames h
    exact syncMessageItem_names hnames h
  rw [if_neg hmessage] at hnames h
  by_cases hextra : turn.2.entityType ∈ ["message_extra", "message_ext"]
  · rw [if_pos hextra] at hnames h
    obtain ⟨hraw, hchannel, rfl⟩ := hnames
    exact syncExtraItem_names hraw hchannel h
  rw [if_neg hextra] at hnames h
  by_cases hreaction : turn.2.entityType ∈ ["message_reaction", "reaction"]
  · rw [if_pos hreaction] at hnames h
    exact syncReactionItem_names hnames h
  rw [if_neg hreaction] at hnames h
  by_cases hmention : turn.2.entityType ∈ ["mention", "message_mention"]
  · rw [if_pos hmention] at hnames h
    obtain ⟨hshown, rfl⟩ := hnames
    exact syncMentionItem_names hshown h
  · rw [if_neg hmention] at hnames
    cases hnames

end Reports

section Drains

variable (codec : Codec) (statusPayload : Json → MessageStatusSyncPayload)
variable (currentUid : Option Nat) (bump : Bool)

/-- A timeline is touched by one of the turns that a loop makes. -/
def Codec.turnsTouch (key : ChannelCacheKey) :
    List (Env × Entry ItemPayload) → Store → Prop
  | [], _ => False
  | turn :: turns, s =>
      codec.touches statusPayload currentUid turn s key ∨
        codec.Applies statusPayload currentUid bump s turn ∧
          Codec.turnsTouch key turns
            (codec.afterTurn statusPayload currentUid bump s turn)

/-- No turn fails, and one of them names the timeline. -/
def Codec.turnsReport (key : ChannelCacheKey) (turns : List (Env × Entry ItemPayload))
    (s : Store) : Prop :=
  Guarded (codec.afterTurn statusPayload currentUid bump)
      (codec.Applies statusPayload currentUid bump) s turns ∧
    ¬ Guarded (codec.afterTurn statusPayload currentUid bump)
      (fun s turn => ¬ codec.names currentUid turn s key) s turns

variable {codec : Codec} {statusPayload : Json → MessageStatusSyncPayload}
variable {currentUid : Option Nat} {bump : Bool}
variable {key : ChannelCacheKey} {s : Store}

/-- A loop keeps every timeline that none of its turns touches. -/
theorem applySyncEntries_keeps
    {turns : List (Env × Entry ItemPayload)}
    (hn : ¬ codec.turnsTouch statusPayload currentUid bump key turns s) :
    KeepsChannel key s
      (codec.applySyncEntries statusPayload currentUid bump turns s).2 := by
  induction turns generalizing s with
  | nil =>
      exact KeepsChannel.refl key s
  | cons turn turns ih =>
      unfold Codec.turnsTouch at hn
      rw [not_or, not_and] at hn
      have hfirst : KeepsChannel key s
          (codec.afterTurn statusPayload currentUid bump s turn) := syncEntity_keeps hn.1
      have hrest := hn.2
      rw [applySyncEntries_cons]
      unfold Codec.afterTurn Exec.after at hfirst hrest
      unfold Codec.Applies at hrest
      rcases hrun : codec.syncEntity statusPayload currentUid bump turn.2 turn.1 s with
        ⟨_ | events, s'⟩
      · rw [hrun] at hfirst
        exact hfirst
      · rw [hrun] at hfirst hrest
        have hlater := ih (hrest rfl)
        refine KeepsChannel.trans s s' _ hfirst ?_
        dsimp only at hlater ⊢
        rcases hlast : codec.applySyncEntries statusPayload currentUid bump turns s' with
          ⟨_ | later, s''⟩
        · rw [hlast] at hlater
          exact hlater
        · rw [hlast] at hlater
          exact hlater

/-- A loop that ends well reports every timeline that one of its turns names. -/
theorem applySyncEntries_reports
    {turns : List (Env × Entry ItemPayload)} {events : List SdkEvent} {s' : Store}
    (hnames : ¬ Guarded (codec.afterTurn statusPayload currentUid bump)
      (fun s turn => ¬ codec.names currentUid turn s key) s turns)
    (h : codec.applySyncEntries statusPayload currentUid bump turns s =
      (.ok events, s')) :
    Reports key events := by
  induction turns generalizing s events with
  | nil =>
      exact absurd trivial hnames
  | cons turn turns ih =>
      rw [guarded_cons, not_and] at hnames
      rw [applySyncEntries_cons] at h
      rcases hrun : codec.syncEntity statusPayload currentUid bump turn.2 turn.1 s with
        ⟨_ | first, s₁⟩
      · rw [hrun] at h
        cases h
      rw [hrun] at h
      dsimp only at h
      rcases hrest : codec.applySyncEntries statusPayload currentUid bump turns s₁ with
        ⟨_ | later, s₂⟩
      · rw [hrest] at h
        cases h
      rw [hrest] at h
      cases h
      by_cases hname : codec.names currentUid turn s key
      · obtain ⟨messageId, reason, hmem⟩ := syncEntity_names hname hrun
        exact ⟨messageId, reason, List.mem_append_left _ hmem⟩
      · have hlater := hnames hname
        unfold Codec.afterTurn Exec.after at hlater
        rw [hrun] at hlater
        obtain ⟨messageId, reason, hmem⟩ := ih hlater hrest
        exact ⟨messageId, reason, List.mem_append_right _ hmem⟩

/-- A new message changes the timeline that it is reported for. -/
theorem names_of_inserts
    {turn : Env × Entry ItemPayload} {input : UpsertRemoteMessageInput}
    (htype : turn.2.entityType = "message")
    (haction : codec.messageItemAction turn.2.scope turn.1.now
      (readItem ItemPayload.asMessage turn.2.item) = .upsert input)
    (hinserts : input.inserts currentUid s)
    (htouch : codec.touches statusPayload currentUid turn s key) :
    codec.names currentUid turn s key := by
  unfold Codec.touches Codec.messageTouches at htouch
  unfold Codec.names Codec.messageNames
  dsimp only at htouch ⊢
  rw [if_pos htype, haction] at htouch ⊢
  refine ⟨hinserts, ?_⟩
  rcases htouch.2 with hkey | ⟨row, hrow | hrow, -⟩
  · exact hkey
  · cases hinserts.1.symm.trans hrow
  · cases hinserts.2.symm.trans hrow

/-- Turns that name what they touch report every timeline that one of them touches. -/
theorem turnsReport_of_touch
    {turns : List (Env × Entry ItemPayload)}
    (happlies : Guarded (codec.afterTurn statusPayload currentUid bump)
      (codec.Applies statusPayload currentUid bump) s turns)
    (hnamed : Guarded (codec.afterTurn statusPayload currentUid bump)
      (fun s turn => codec.touches statusPayload currentUid turn s key →
        codec.names currentUid turn s key) s turns)
    (htouch : codec.turnsTouch statusPayload currentUid bump key turns s) :
    codec.turnsReport statusPayload currentUid bump key turns s := by
  refine ⟨happlies, ?_⟩
  induction turns generalizing s with
  | nil =>
      exact htouch.elim
  | cons turn turns ih =>
      intro hunnamed
      rcases htouch with hfirst | ⟨-, hrest⟩
      · exact hunnamed.1 (hnamed.1 hfirst)
      · exact ih happlies.2 hnamed.2 hrest hunnamed.2

/-- A loop that ends well over turns that report the timeline. -/
theorem Codec.turnsReport.reports
    {turns : List (Env × Entry ItemPayload)}
    (h : codec.turnsReport statusPayload currentUid bump key turns s) :
    ∃ events,
      codec.applySyncEntries statusPayload currentUid bump turns s =
        (.ok events,
          (codec.applySyncEntries statusPayload currentUid bump turns s).2) ∧
      Reports key events := by
  have hok := (applySyncEntries_iff turns s).1.mpr h.1
  rcases hrun : codec.applySyncEntries statusPayload currentUid bump turns s with
    ⟨_ | events, s'⟩
  · rw [hrun] at hok
    cases hok
  · exact ⟨events, rfl, applySyncEntries_reports h.2 hrun⟩

end Drains

section History

variable (codec : Codec) (currentUid : Option Nat)

/-- A timeline is touched by one of the upserts of a page. -/
def upsertsTouch (env : Env) (key : ChannelCacheKey) :
    List UpsertRemoteMessageInput → Store → Prop
  | [], _ => False
  | input :: inputs, s =>
      input.touches currentUid key s ∨
        upsertsTouch env key inputs (s.afterUpsert currentUid env input)

/-- No upsert of a page fails. -/
def UpsertsSucceed
    (env : Env) (inputs : List UpsertRemoteMessageInput) (s : Store) : Prop :=
  Guarded (Store.afterUpsert currentUid env)
    (fun s input =>
      (upsertRemoteMessageWithResult currentUid input env s).1.isOk = true) s inputs

def Codec.pageInputs (items : List MessageHistoryItem) (channelType : Int) :
    List UpsertRemoteMessageInput :=
  items.map (fun item => codec.historyItemToUpsertInput item channelType)

/-- The channel type that a history command works with. -/
def normalizedChannelType (channelType : Int) : Int :=
  if channelType = 0 then 1 else channelType

/-- `fetch_and_store_channel_history`, with the answer that the server gives. -/
def Codec.fetchAndStoreChannelHistory
    (answer : Except StoreError (List MessageHistoryItem)) (channelType : Int) :
    StoreM (List MessageHistoryItem) := do
  let answer ← query "message_history/get" (fun _ => answer)
  match answer with
  | .ok items => do
      let _ ← codec.storeHistoryItems currentUid items (normalizedChannelType channelType)
      pure items
  | .error e => Exec.fail e

/-- The page that an answer brings, if it comes through. -/
def answeredPage
    (env : Env) (answer : Except StoreError (List MessageHistoryItem)) :
    List MessageHistoryItem :=
  if env.fault "message_history/get" then [] else answer.toOption.getD []

/-- The page that a request for surroundings brings, if it comes through. -/
def AroundServer.page
    (server : AroundServer) (env : Env) (req : MessageHistoryAroundRequest) :
    List MessageHistoryItem :=
  if env.fault "message_history/around" then
    []
  else
    ((server req).toOption.map (fun resp =>
      resp.beforeMessages ++ resp.anchorMessage :: resp.afterMessages)).getD []

variable {codec : Codec} {currentUid : Option Nat}
variable {key : ChannelCacheKey} {env : Env} {s s' : Store}

theorem upserts_keep
    {inputs : List UpsertRemoteMessageInput}
    (hn : ¬ upsertsTouch currentUid env key inputs s) :
    KeepsChannel key s (run (Store.afterUpsert currentUid env) s inputs) := by
  induction inputs generalizing s with
  | nil =>
      exact KeepsChannel.refl key s
  | cons input inputs ih =>
      rw [run_cons]
      unfold upsertsTouch at hn
      rw [not_or] at hn
      exact KeepsChannel.trans s _ _ (upsert_keeps hn.1 rfl) (ih hn.2)

/-- A page keeps every timeline that none of its upserts touches. -/
theorem storeHistoryItems_keeps
    {items : List MessageHistoryItem} {channelType : Int}
    (hn : ¬ upsertsTouch currentUid env key (codec.pageInputs items channelType) s) :
    KeepsChannel key s
      ((codec.storeHistoryItems currentUid items channelType).after env s) := by
  rw [after_storeHistoryItems]
  exact upserts_keep hn

theorem upsertEach_succeed
    {inputs : List UpsertRemoteMessageInput}
    (h : UpsertsSucceed currentUid env inputs s) :
    ∃ stored : List UpsertRemoteMessageResult,
      (upsertEach currentUid inputs env s).1 = .ok (stored.map Except.ok) := by
  induction inputs generalizing s with
  | nil =>
      exact ⟨[], rfl⟩
  | cons input inputs ih =>
      obtain ⟨hfirst, hrest⟩ := h
      obtain ⟨stored, hstored⟩ := ih hrest
      unfold upsertEach
      rw [Exec.attempt_bind, Exec.bind_run]
      unfold Store.afterUpsert Exec.after at hstored
      rcases hrun : upsertRemoteMessageWithResult currentUid input env s with
        ⟨_ | result, s₁⟩
      · rw [hrun] at hfirst
        cases hfirst
      rw [hrun] at hstored
      dsimp only at hstored ⊢
      rcases hlater : upsertEach currentUid inputs env s₁ with ⟨_ | results, s₂⟩
      · rw [hlater] at hstored
        cases hstored
      · rw [hlater] at hstored
        cases hstored
        exact ⟨result :: stored, rfl⟩

/-- A page whose upserts all succeed is stored without a failure. -/
theorem storeHistoryItems_succeed
    {items : List MessageHistoryItem} {channelType : Int}
    (h : UpsertsSucceed currentUid env (codec.pageInputs items channelType) s) :
    ∃ ids, (codec.storeHistoryItems currentUid items channelType env s).1 = .ok ids := by
  obtain ⟨stored, hstored⟩ := upsertEach_succeed h
  have hmap : ∀ stored : List UpsertRemoteMessageResult,
      (stored.map (Except.ok (ε := StoreError))).mapM
          (fun result => result.map (fun stored => stored.messageId)) =
        .ok (stored.map (fun stored => stored.messageId)) := by
    intro stored
    induction stored with
    | nil =>
        rfl
    | cons first stored ih =>
        rw [List.map_cons, List.mapM_cons, ih]
        rfl
  unfold Codec.storeHistoryItems
  rw [Exec.bind_run, batchUpsert_eq_upsertEach]
  unfold Codec.pageInputs at hstored
  rcases hrun : upsertEach currentUid
      (items.map (fun item => codec.historyItemToUpsertInput item channelType)) env s with
    ⟨_ | results, s₁⟩
  · rw [hrun] at hstored
    cases hstored
  · rw [hrun] at hstored
    cases hstored
    dsimp only
    rw [hmap stored]
    exact ⟨_, rfl⟩

/-- A page is stored, and its answer is handed on if no upsert fails. -/
theorem storePage_cases
    {α : Type} {items : List MessageHistoryItem} {channelType : Int} {a : α}
    {res : Except StoreError α}
    (h : (do
        let _ ← codec.storeHistoryItems currentUid items channelType
        pure a : StoreM α) env s = (res, s')) :
    s' = (codec.storeHistoryItems currentUid items channelType).after env s ∧
      (UpsertsSucceed currentUid env (codec.pageInputs items channelType) s →
        res = .ok a) := by
  unfold Exec.after
  rw [Exec.bind_run] at h
  rcases hrun : codec.storeHistoryItems currentUid items channelType env s with
    ⟨e | ids, s₁⟩
  · rw [hrun] at h
    cases h
    refine ⟨rfl, fun hsucceed => ?_⟩
    obtain ⟨ids, hids⟩ := storeHistoryItems_succeed hsucceed
    rw [hrun] at hids
    cases hids
  · rw [hrun] at h
    cases h
    exact ⟨rfl, fun _ => rfl⟩

/-- A request that is refused stores nothing; else its page is stored. -/
theorem fetchAndStoreChannelHistory_cases
    {answer : Except StoreError (List MessageHistoryItem)} {channelType : Int}
    {res : Except StoreError (List MessageHistoryItem)}
    (h : codec.fetchAndStoreChannelHistory currentUid answer channelType env s =
      (res, s')) :
    s' = s ∨
      s' = (codec.storeHistoryItems currentUid (answeredPage env answer)
          (normalizedChannelType channelType)).after env s ∧
        (UpsertsSucceed currentUid env (codec.pageInputs (answeredPage env answer)
          (normalizedChannelType channelType)) s → ∃ items, res = .ok items) := by
  unfold Codec.fetchAndStoreChannelHistory at h
  rw [Exec.bind_run] at h
  cases hrun : query "message_history/get" (fun _ => answer) env s with
  | mk called s₁ =>
  rw [hrun] at h
  cases called with
  | error e =>
      cases h
      exact Or.inl (query_error hrun).1
  | ok called =>
      obtain ⟨hfault, hanswer, rfl⟩ := query_ok.mp hrun
      cases called with
      | error e =>
          cases h
          exact Or.inl rfl
      | ok items =>
          subst hanswer
          have hpage : answeredPage env (.ok items) = items := by
            unfold answeredPage
            rw [hfault]
            rfl
          obtain ⟨hstore, hres⟩ := storePage_cases h
          rw [hpage]
          exact Or.inr ⟨hstore, fun hsucceed => ⟨items, hres hsucceed⟩⟩

/-- The surroundings that a request brings are stored. -/
theorem fetchAndStoreMessagesAround_cases
    {server : AroundServer} {channelId messageId : Nat} {channelType : Int}
    {beforeLimit afterLimit : Option Nat}
    {res : Except StoreError MessageHistoryAroundResponse}
    (h : codec.fetchAndStoreMessagesAround currentUid server channelId channelType
      messageId beforeLimit afterLimit env s = (res, s')) :
    let req : MessageHistoryAroundRequest :=
      { channelId := channelId
        messageId := messageId
        beforeLimit := beforeLimit
        afterLimit := afterLimit }
    s' = s ∨
      s' = (codec.storeHistoryItems currentUid (server.page env req)
          (normalizedChannelType channelType)).after env s ∧
        (UpsertsSucceed currentUid env (codec.pageInputs (server.page env req)
          (normalizedChannelType channelType)) s →
            ∃ resp, server req = .ok resp ∧ res = .ok resp) := by
  intro req
  unfold Codec.fetchAndStoreMessagesAround AroundServer.call at h
  rw [Exec.bind_assoc, Exec.bind_run] at h
  cases hrun : query "message_history/around" (fun _ => server req) env s with
  | mk called s₁ =>
  rw [hrun] at h
  cases called with
  | error e =>
      cases h
      exact Or.inl (query_error hrun).1
  | ok called =>
      obtain ⟨hfault, hserver, rfl⟩ := query_ok.mp hrun
      cases called with
      | error e =>
          cases h
          exact Or.inl rfl
      | ok resp =>
          have hpage : server.page env req =
              resp.beforeMessages ++ resp.anchorMessage :: resp.afterMessages := by
            unfold AroundServer.page
            rw [hfault, hserver]
            rfl
          obtain ⟨hstore, hres⟩ := storePage_cases h
          rw [hpage]
          exact Or.inr ⟨hstore, fun hsucceed => ⟨resp, hserver, hres hsucceed⟩⟩

/-- The request of a repair. -/
def Session.RepairKey.request (key : RepairKey) : MessageHistoryAroundRequest where
  channelId := key.channelId
  messageId := key.serverMessageId
  beforeLimit := some 0
  afterLimit := some 0

/-- The channel in which a repair looks for its message. -/
def Session.RepairKey.channelKey (key : RepairKey) : ChannelCacheKey where
  channelId := key.channelId
  channelType := key.normalizedType

/-- The server answers with the message, which is then in its channel. -/
def Codec.RepairFinds
    (codec : Codec) (currentUid : Option Nat) (server : AroundServer) (key : RepairKey)
    (env : Env) (s : Store) : Prop :=
  (∃ resp, server key.request = .ok resp ∧
      resp.anchorMessage.messageId = key.serverMessageId) ∧
    env.fault "get message id by server_message_id" = false ∧
    ((codec.storeHistoryItems currentUid (server.page env key.request)
      key.normalizedType).after env s).holdsServerId key.channelKey key.serverMessageId

/-- A repair stores what the server has around its message. -/
theorem repairMessageProjection_cases
    {server : AroundServer} {key : RepairKey} {res : Except StoreError (Option Nat)}
    (h : codec.repairMessageProjection currentUid server key env s = (res, s')) :
    s' = s ∨
      s' = (codec.storeHistoryItems currentUid (server.page env key.request)
          key.normalizedType).after env s ∧
        (UpsertsSucceed currentUid env
            (codec.pageInputs (server.page env key.request) key.normalizedType) s →
          codec.RepairFinds currentUid server key env s →
            ∃ messageId, res = .ok (some messageId)) := by
  have hnormal : normalizedChannelType key.normalizedType = key.normalizedType := by
    unfold normalizedChannelType RepairKey.normalizedType
    split_ifs
    all_goals omega
  unfold Codec.repairMessageProjection at h
  rw [Exec.bind_run] at h
  cases hrun : codec.fetchAndStoreMessagesAround currentUid server key.channelId
      key.normalizedType key.serverMessageId (some 0) (some 0) env s with
  | mk fetched s₁ =>
  rw [hrun] at h
  have hcases := fetchAndStoreMessagesAround_cases hrun
  dsimp only at hcases
  rw [hnormal] at hcases
  have hstore : s' = s₁ := by
    cases fetched with
    | error e =>
        cases h
        rfl
    | ok resp =>
        dsimp only at h
        split at h
        · cases h
          rfl
        · unfold getMessageIdByServerMessageId at h
          cases res with
          | error e =>
              exact (query_error h).1
          | ok found =>
              exact (query_ok.mp h).2.2.symm
  rcases hcases with hs | ⟨hs, hres⟩
  · exact Or.inl (hstore.trans hs)
  · refine Or.inr ⟨hstore.trans hs, fun hsucceed hfinds => ?_⟩
    obtain ⟨resp, hserver, rfl⟩ := hres hsucceed
    obtain ⟨⟨resp', hserver', hanchor⟩, hfault, row, hrow, hsid, hkey⟩ := hfinds
    cases hserver.symm.trans hserver'
    dsimp only at h
    rw [if_neg (not_not.mpr hanchor)] at h
    have hfound : (s₁.message.rows.find? (fun r =>
        r.serverMessageId == some key.serverMessageId && r.channelId == key.channelId &&
          r.channelType == key.normalizedType)).isSome = true := by
      rw [List.find?_isSome]
      refine ⟨row, hs ▸ hrow, ?_⟩
      unfold MessageRow.inChannel RepairKey.channelKey at hkey
      rw [Bool.and_assoc, hkey, hsid, beq_self_eq_true, Bool.and_self]
    obtain ⟨found, hfound⟩ := Option.isSome_iff_exists.mp hfound
    unfold getMessageIdByServerMessageId at h
    have hlookup := h.symm.trans (query_ok.mpr ⟨hfault, rfl, rfl⟩)
    rw [hfound] at hlookup
    cases hlookup
    exact ⟨found.id, rfl⟩

end History

end PrivchatSdk
