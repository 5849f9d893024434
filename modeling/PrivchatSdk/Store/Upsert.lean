import PrivchatSdk.Lib.Run
import PrivchatSdk.Store.Message

/-!
# Upserting remote copies of a message

`upsertRemoteMessageWithResult` writes what the server says about a message,
whichever path brought it.  It looks for the message twice, by server id and by
the local id of an own message.

`UpsertOutcome` lists everything the upsert can do to the store, the partial
effects of a failing statement included, and `upsert_outcome` is the only place
that opens the operation.  The source spells the upsert out a second time for the
items of a batch; the two copies agree (`upsertOneInTx_eq`), so that a batch is
its items one after another (`batchUpsert_eq_upsertSingly`, `after_batchUpsert`).
-/

namespace PrivchatSdk

open StatementExec RelTable

section Inputs

/-- What the server says about one message. -/
structure UpsertRemoteMessageInput where
  serverMessageId : Nat
  localMessageId : Nat
  channelId : Nat
  channelType : Int
  timestamp : Int
  timestampPrecision : TimePrecision
  fromUid : Nat
  messageType : Int
  content : String
  status : Int
  pts : Int
  setting : Int
  orderSeq : Int
  searchableWord : String
  extra : String
  mimeType : Option String
  revoked : Bool
  deriving DecidableEq, Repr

/-- A plain text message of a direct channel, as history reports it. -/
def UpsertRemoteMessageInput.text
    (serverMessageId localMessageId channelId fromUid : Nat) (pts : Int)
    (content : String) : UpsertRemoteMessageInput where
  serverMessageId := serverMessageId
  localMessageId := localMessageId
  channelId := channelId
  channelType := 1
  timestamp := 1785148271317
  timestampPrecision := .milliseconds
  fromUid := fromUid
  messageType := 0
  content := content
  status := 2
  pts := pts
  setting := 0
  orderSeq := pts
  searchableWord := content
  extra := ""
  mimeType := none
  revoked := false

structure UpsertRemoteMessageResult where
  messageId : Nat
  insertedNew : Bool
  deriving DecidableEq, Repr

/-- `sent_at_ms`: the send time in milliseconds, or the local clock without one. -/
def sentAtMs (timestamp fallbackMs : Int) : Int :=
  if 100000000000 ≤ timestamp then timestamp
  else if 0 < timestamp then timestamp * 1000
  else fallbackMs

namespace UpsertRemoteMessageInput

/-- The row that the final `INSERT` of an upsert writes. -/
def toRow (input : UpsertRemoteMessageInput) (now : Int) (id : Nat) :
    MessageRow where
  id := id
  serverMessageId := some input.serverMessageId
  pts := input.pts
  channelId := input.channelId
  channelType := input.channelType
  timestamp := some input.timestamp
  fromUid := input.fromUid
  messageType := input.messageType
  content := input.content
  status := input.status
  createdAt := sentAtMs input.timestamp now
  updatedAt := now
  searchableWord := input.searchableWord
  localMessageId := input.localMessageId
  setting := input.setting
  orderSeq := input.orderSeq
  extra := input.extra
  mimeType := input.mimeType
  mediaDownloaded := false
  thumbStatus := 0
  createdAtPrecision := input.timestampPrecision

/-- The `UPDATE` of `update_row`; only a more precise send time replaces one. -/
def overwrite (input : UpsertRemoteMessageInput) (now : Int) (r : MessageRow) :
    MessageRow :=
  { r with
    channelId := input.channelId
    channelType := input.channelType
    timestamp := some input.timestamp
    fromUid := input.fromUid
    messageType := input.messageType
    content := input.content
    status := input.status
    updatedAt := now
    searchableWord := input.searchableWord
    localMessageId := input.localMessageId
    setting := input.setting
    extra := input.extra
    pts := input.pts
    orderSeq := input.orderSeq
    serverMessageId := some input.serverMessageId
    createdAt :=
      if r.createdAt ≤ 0 then sentAtMs input.timestamp now
      else if input.timestampPrecision = .milliseconds ∧
          r.createdAtPrecision = .seconds then
        sentAtMs input.timestamp now
      else r.createdAt
    createdAtPrecision :=
      if r.createdAt ≤ 0 then input.timestampPrecision
      else if input.timestampPrecision = .milliseconds ∧
          r.createdAtPrecision = .seconds then
        .milliseconds
      else r.createdAtPrecision
    mimeType := input.mimeType.or r.mimeType }

/-- The guard against an out-of-order replay regressing a newer row. -/
def stale (input : UpsertRemoteMessageInput) (row : MessageRow) : Bool :=
  decide (input.orderSeq < row.orderSeq) ||
    (input.orderSeq == row.orderSeq && decide (input.pts < row.pts))

end UpsertRemoteMessageInput

end Inputs

section Upsert

/-- The row that holds a server id. -/
def Store.byServerId (s : Store) (serverMessageId : Nat) : Option MessageRow :=
  s.message.rows.find? (fun r => r.serverMessageId == some serverMessageId)

/-- The first row of a sender with a local id. -/
def Store.byLocalId (s : Store) (fromUid localMessageId : Nat) :
    Option MessageRow :=
  s.message.rows.find?
    (fun r => r.fromUid == fromUid && r.localMessageId == localMessageId)

/-- A positive server id is looked up through its unique index. -/
theorem Store.byServerId_eq_some_iff
    (s : Store) {serverMessageId : Nat} (hpos : 0 < serverMessageId)
    (row : MessageRow) :
    s.byServerId serverMessageId = some row ↔
      row ∈ s.message.rows ∧ row.serverMessageId = some serverMessageId := by
  have hl : s.byServerId serverMessageId = s.message.lookup serverMessageId := by
    unfold Store.byServerId Table.lookup
    congr 1
    funext r
    simp [hpos, beq_eq_decide]
  rw [hl, Table.lookup_eq_some_iff, mem_keys_message]
  simp [hpos]

/-- No other row holds the server id. -/
theorem eq_of_byServerId
    {s : Store} {serverMessageId : Nat} (hpos : 0 < serverMessageId)
    {row r : MessageRow} (hrow : s.byServerId serverMessageId = some row)
    (hr : r ∈ s.message.rows) (hsid : r.serverMessageId = some serverMessageId) :
    r = row := by
  obtain ⟨hmem, hfound⟩ := (s.byServerId_eq_some_iff hpos row).mp hrow
  refine s.message.key_inj (k := serverMessageId) hr hmem ?_ ?_
  · simp [hsid, hpos]
  · simp [hfound, hpos]

theorem Store.byServerId_eq_none_iff
    (s : Store) (serverMessageId : Nat) :
    s.byServerId serverMessageId = none ↔
      ∀ r ∈ s.message.rows, r.serverMessageId ≠ some serverMessageId := by
  simp [Store.byServerId]

theorem Store.mem_of_byLocalId
    {s : Store} {fromUid localMessageId : Nat} {row : MessageRow}
    (h : s.byLocalId fromUid localMessageId = some row) :
    row ∈ s.message.rows ∧ row.fromUid = fromUid ∧
      row.localMessageId = localMessageId := by
  refine ⟨List.mem_of_find?_eq_some h, ?_⟩
  simpa using List.find?_some h

/-- The extra columns that mark a message as revoked, on insert. -/
def revokeInsert (now : Int) : ExtraWrite where
  apply r := { r with revoke := true, extraVersion := now }

/-- The extra columns that mark a message as revoked, on conflict. -/
def revokeUpdate (now : Int) : ExtraWrite where
  apply r := { r with revoke := true, extraVersion := max r.extraVersion now }

/-- The effect of `apply_remote_revoke_flag` for a revoked input. -/
def Store.flagRevoked
    (s : Store) (messageId : Nat) (input : UpsertRemoteMessageInput)
    (now : Int) : Store :=
  { s with
    messageExtra := upsertedExtra s.messageExtra messageId input.channelId
      input.channelType (revokeInsert now) (revokeUpdate now) }

/-- `apply_remote_revoke_flag`: the flag is written, never cleared. -/
def applyRemoteRevokeFlag
    (messageId : Nat) (input : UpsertRemoteMessageInput) : StoreM PUnit :=
  if input.revoked then do
    let now ← nowMs
    exec "mark remote message revoked"
      (fun s => s.flagRevoked messageId input now)
  else
    pure .unit

/-- `update_row` and the result of its caller. -/
def updateRow
    (messageId : Nat) (input : UpsertRemoteMessageInput) (now : Int) :
    StoreM UpsertRemoteMessageResult := do
  let _ ← updateMessage "update remote message" messageId
    (input.overwrite now) (fun _ => rfl)
  applyRemoteRevokeFlag messageId input
  pure { messageId := messageId, insertedNew := false }

/-- The `INSERT` branch. -/
def insertRow
    (input : UpsertRemoteMessageInput) (now : Int) :
    StoreM UpsertRemoteMessageResult := do
  let messageId ← insertMessage "insert remote message"
    (input.toRow now) (fun _ => rfl)
  applyRemoteRevokeFlag messageId input
  pure { messageId := messageId, insertedNew := true }

/-- `from_self && input.local_message_id > 0`. -/
def UpsertRemoteMessageInput.hasLocalIdentity
    (input : UpsertRemoteMessageInput) (currentUid : Option Nat) : Bool :=
  currentUid == some input.fromUid && decide (0 < input.localMessageId)

/-- The row that the input names by its local id. -/
def Store.byInputLocalId
    (s : Store) (currentUid : Option Nat) (input : UpsertRemoteMessageInput) :
    Option MessageRow :=
  if input.hasLocalIdentity currentUid then
    s.byLocalId input.fromUid input.localMessageId
  else
    none

/-- The second lookup, made for own messages with a local id only. -/
def queryByLocalId
    (currentUid : Option Nat) (input : UpsertRemoteMessageInput) :
    StoreM (Option MessageRow) :=
  if input.hasLocalIdentity currentUid then
    query "query local message by local_message_id"
      (fun s => s.byLocalId input.fromUid input.localMessageId)
  else
    pure none

/-- What the upsert does once both lookups have answered. -/
def upsertFound
    (input : UpsertRemoteMessageInput) (now : Int)
    (existed existedByLocal : Option MessageRow) :
    StoreM UpsertRemoteMessageResult :=
  match existed, existedByLocal with
  | some row, some localRow =>
      if input.stale row then
        pure { messageId := row.id, insertedNew := false }
      else if localRow.id ≠ row.id then do
        -- the local row stays the canonical one
        deleteMessage "delete duplicate remote message"
          (fun r => r.id == row.id)
        updateRow localRow.id input now
      else
        updateRow row.id input now
  | some row, none =>
      if input.stale row then
        pure { messageId := row.id, insertedNew := false }
      else
        updateRow row.id input now
  | none, some localRow =>
      if input.stale localRow then
        pure { messageId := localRow.id, insertedNew := false }
      else
        updateRow localRow.id input now
  | none, none =>
      insertRow input now

/-- `upsert_remote_message_with_result`. -/
def upsertRemoteMessageWithResult
    (currentUid : Option Nat) (input : UpsertRemoteMessageInput) :
    StoreM UpsertRemoteMessageResult :=
  if input.serverMessageId = 0 then
    Exec.fail (.invalidState "server_message_id is required")
  else do
    let now ← nowMs
    let existed ← query "query remote message"
      (fun s => s.byServerId input.serverMessageId)
    let existedByLocal ← queryByLocalId currentUid input
    upsertFound input now existed existedByLocal

/-- `update_row` of a batch item. -/
def updateRowInTx
    (input : UpsertRemoteMessageInput) (now : Int) (rowId : Nat) :
    StoreM PUnit := do
  let _ ← updateMessage "update remote message" rowId
    (input.overwrite now) (fun _ => rfl)
  applyRemoteRevokeFlag rowId input

/-- `upsert_one_in_tx`: the single upsert, spelled out once more for a batch. -/
def upsertOneInTx
    (input : UpsertRemoteMessageInput) (now : Int) (currentUid : Option Nat) :
    StoreM UpsertRemoteMessageResult :=
  if input.serverMessageId = 0 then
    Exec.fail (.invalidState "server_message_id is required")
  else do
    let fromSelf := (currentUid.map (· == input.fromUid)).getD false
    let existed ← query "query remote message"
      (fun s => s.byServerId input.serverMessageId)
    let existedByLocal ←
      (if fromSelf && decide (0 < input.localMessageId) then
        query "query local message by local_message_id"
          (fun s => s.byLocalId input.fromUid input.localMessageId)
      else
        pure none)
    match existed with
    | some row =>
        if input.stale row then
          pure { messageId := row.id, insertedNew := false }
        else
          match existedByLocal.filter (fun localRow => localRow.id != row.id) with
          | some localRow => do
              deleteMessage "delete duplicate remote message"
                (fun r => r.id == row.id)
              updateRowInTx input now localRow.id
              pure { messageId := localRow.id, insertedNew := false }
          | none => do
              updateRowInTx input now row.id
              pure { messageId := row.id, insertedNew := false }
    | none =>
        match existedByLocal with
        | some row =>
            if input.stale row then
              pure { messageId := row.id, insertedNew := false }
            else do
              updateRowInTx input now row.id
              pure { messageId := row.id, insertedNew := false }
        | none => do
            let messageId ← insertMessage "insert remote message"
              (input.toRow now) (fun _ => rfl)
            applyRemoteRevokeFlag messageId input
            pure { messageId := messageId, insertedNew := true }

/-- Upsert item by item and collect what each ends in. -/
def upsertEach (currentUid : Option Nat) :
    List UpsertRemoteMessageInput →
      StoreM (List (Except StoreError UpsertRemoteMessageResult))
  | [] => pure []
  | input :: inputs => do
      let result ← (upsertRemoteMessageWithResult currentUid input).attempt
      let results ← upsertEach currentUid inputs
      pure (result :: results)

/-- The loop of a batch, with the clock value the batch read. -/
def upsertEachInTx (now : Int) (currentUid : Option Nat) :
    List UpsertRemoteMessageInput →
      StoreM (List (Except StoreError UpsertRemoteMessageResult))
  | [] => pure []
  | input :: inputs => do
      let result ← (upsertOneInTx input now currentUid).attempt
      let results ← upsertEachInTx now currentUid inputs
      pure (result :: results)

/-- `batch_upsert_inner`: every item in one transaction, item errors collected. -/
def batchUpsertInner
    (currentUid : Option Nat) (inputs : List UpsertRemoteMessageInput) :
    StoreM (List (Except StoreError UpsertRemoteMessageResult)) :=
  withTx "begin batch tx" "commit batch tx" (do
    let now ← nowMs
    upsertEachInTx now currentUid inputs)

/-- `batch_upsert_remote_messages`: without the transaction, item by item. -/
def batchUpsertRemoteMessages
    (currentUid : Option Nat) (inputs : List UpsertRemoteMessageInput) :
    StoreM (List (Except StoreError UpsertRemoteMessageResult)) :=
  if inputs.isEmpty then
    pure []
  else
    (batchUpsertInner currentUid inputs).recover (upsertEach currentUid inputs)

end Upsert

section Outcome

variable (currentUid : Option Nat) (input : UpsertRemoteMessageInput)

/--
The row an upsert writes to, and the message table it finds: without the
duplicate that is deleted first, if there is one.
-/
inductive UpsertTarget (s : Store) : Table MessageRow → MessageRow → Prop
  | byServerId (row : MessageRow)
      (hrow : s.byServerId input.serverMessageId = some row)
      (hfresh : input.stale row = false)
      (hlocal : ∀ l, s.byInputLocalId currentUid input = some l → l.id = row.id) :
      UpsertTarget s s.message row
  | byLocalId (row : MessageRow)
      (hnone : s.byServerId input.serverMessageId = none)
      (hrow : s.byInputLocalId currentUid input = some row)
      (hfresh : input.stale row = false) :
      UpsertTarget s s.message row
  | merge (drop keep : MessageRow)
      (hdrop : s.byServerId input.serverMessageId = some drop)
      (hfresh : input.stale drop = false)
      (hkeep : s.byInputLocalId currentUid input = some keep)
      (hne : keep.id ≠ drop.id) :
      UpsertTarget s (s.message.deleteWhere (fun r => r.id == drop.id)) keep

/-- The store after the revoke flag of the input was taken over. -/
def Store.takeRevoke
    (s : Store) (messageId : Nat) (input : UpsertRemoteMessageInput)
    (now : Int) : Store :=
  if input.revoked then s.flagRevoked messageId input now else s

/-- Everything an upsert can do to the store. -/
inductive UpsertOutcome (env : Env) (s : Store) :
    Except StoreError UpsertRemoteMessageResult → Store → Prop
  | failed (e : StoreError) (he : e.onServerIdIndex = false) :
      UpsertOutcome env s (.error e) s
  | stale (row : MessageRow) (hpos : 0 < input.serverMessageId)
      (hrow : s.byServerId input.serverMessageId = some row ∨
        s.byServerId input.serverMessageId = none ∧
          s.byInputLocalId currentUid input = some row)
      (hstale : input.stale row = true) :
      UpsertOutcome env s (.ok { messageId := row.id, insertedNew := false }) s
  | dropped (e : StoreError) (base : Table MessageRow) (row : MessageRow)
      (he : e.onServerIdIndex = false) (hpos : 0 < input.serverMessageId)
      (htarget : UpsertTarget currentUid input s base row) :
      UpsertOutcome env s (.error e) { s with message := base }
  | unflagged (e : StoreError) (base t : Table MessageRow) (row : MessageRow)
      (he : e.onServerIdIndex = false) (hpos : 0 < input.serverMessageId)
      (htarget : UpsertTarget currentUid input s base row)
      (ht : base.update (fun r => Record.rowid r == row.id)
        (input.overwrite env.now) (fun _ => rfl) = some t)
      (hrevoked : input.revoked = true ∧
        env.fault "mark remote message revoked" = true) :
      UpsertOutcome env s (.error e) { s with message := t }
  | written (base t : Table MessageRow) (row : MessageRow)
      (hpos : 0 < input.serverMessageId)
      (htarget : UpsertTarget currentUid input s base row)
      (ht : base.update (fun r => Record.rowid r == row.id)
        (input.overwrite env.now) (fun _ => rfl) = some t) :
      UpsertOutcome env s (.ok { messageId := row.id, insertedNew := false })
        (Store.takeRevoke { s with message := t } row.id input env.now)
  | insertedUnflagged (e : StoreError) (t : Table MessageRow)
      (he : e.onServerIdIndex = false) (hpos : 0 < input.serverMessageId)
      (hnone : s.byServerId input.serverMessageId = none)
      (hnoneLocal : s.byInputLocalId currentUid input = none)
      (ht : s.message.insert (input.toRow env.now) (fun _ => rfl) =
        some (t, s.message.nextRowid))
      (hrevoked : input.revoked = true ∧
        env.fault "mark remote message revoked" = true) :
      UpsertOutcome env s (.error e) { s with message := t }
  | inserted (t : Table MessageRow)
      (hpos : 0 < input.serverMessageId)
      (hnone : s.byServerId input.serverMessageId = none)
      (hnoneLocal : s.byInputLocalId currentUid input = none)
      (ht : s.message.insert (input.toRow env.now) (fun _ => rfl) =
        some (t, s.message.nextRowid)) :
      UpsertOutcome env s
        (.ok { messageId := s.message.nextRowid, insertedNew := true })
        (Store.takeRevoke { s with message := t } s.message.nextRowid input
          env.now)

variable {currentUid input}

theorem Store.mem_of_byInputLocalId
    {s : Store} {row : MessageRow}
    (h : s.byInputLocalId currentUid input = some row) :
    row ∈ s.message.rows ∧ row.fromUid = input.fromUid ∧
      row.localMessageId = input.localMessageId ∧
      currentUid = some input.fromUid ∧ 0 < input.localMessageId := by
  unfold Store.byInputLocalId at h
  split at h
  · rename_i hid
    obtain ⟨hmem, hfrom, hlid⟩ := Store.mem_of_byLocalId h
    simp only [UpsertRemoteMessageInput.hasLocalIdentity, Bool.and_eq_true,
      beq_iff_eq, decide_eq_true_eq] at hid
    exact ⟨hmem, hfrom, hlid, hid.1, hid.2⟩
  · cases h

/-- The row written to is stored, and no other row of the table holds the id. -/
theorem UpsertTarget.mem
    {s : Store} {base : Table MessageRow} {row : MessageRow}
    (hpos : 0 < input.serverMessageId)
    (h : UpsertTarget currentUid input s base row) :
    row ∈ base.rows ∧ row ∈ s.message.rows ∧
      ∀ b ∈ base.rows, b.id ≠ row.id →
        b.serverMessageId ≠ some input.serverMessageId := by
  cases h with
  | byServerId _ hrow hfresh hlocal =>
      obtain ⟨hmem, hsid⟩ := (s.byServerId_eq_some_iff hpos row).mp hrow
      refine ⟨hmem, hmem, ?_⟩
      intro b hb hne hbsid
      apply hne
      have hkb : input.serverMessageId ∈ Record.keys b := by simp [hbsid, hpos]
      have hkr : input.serverMessageId ∈ Record.keys row := by simp [hsid, hpos]
      rw [s.message.key_inj hb hmem hkb hkr]
  | byLocalId _ hnone hrow hfresh =>
      have hmem := (Store.mem_of_byInputLocalId hrow).1
      refine ⟨hmem, hmem, ?_⟩
      intro b hb _
      exact (s.byServerId_eq_none_iff _).mp hnone b hb
  | merge drop _ hdrop hfresh hkeep hne =>
      obtain ⟨hdmem, hdsid⟩ := (s.byServerId_eq_some_iff hpos drop).mp hdrop
      have hmem := (Store.mem_of_byInputLocalId hkeep).1
      refine ⟨by simp [hmem, hne], hmem, ?_⟩
      intro b hb _ hbsid
      obtain ⟨hb, hbd⟩ := (Table.mem_deleteWhere _ _ b).mp hb
      have hkb : input.serverMessageId ∈ Record.keys b := by simp [hbsid, hpos]
      have hkd : input.serverMessageId ∈ Record.keys drop := by
        simp [hdsid, hpos]
      rw [s.message.key_inj hb hdmem hkb hkd] at hbd
      simp at hbd

/-- The `UPDATE` of an upsert cannot hit the unique index. -/
theorem UpsertTarget.exists_update
    {s : Store} {base : Table MessageRow} {row : MessageRow}
    (hpos : 0 < input.serverMessageId)
    (h : UpsertTarget currentUid input s base row) (now : Int) :
    ∃ t, base.update (fun r => Record.rowid r == row.id)
      (input.overwrite now) (fun _ => rfl) = some t := by
  cases hu : base.update (fun r => Record.rowid r == row.id)
      (input.overwrite now) (fun _ => rfl) with
  | some t =>
      exact ⟨t, rfl⟩
  | none =>
      exfalso
      apply (Table.update_eq_none_iff _ _ _ _).mp hu
      refine Table.keysUnique_updatedRow base row.id _ ?_
      intro a _ _ b hb hbne k hka hkb
      simp only [mem_keys_message, UpsertRemoteMessageInput.overwrite,
        Option.some.injEq] at hka hkb
      rw [← hka.1] at hkb
      exact (h.mem hpos).2.2 b hb hbne hkb.1

/-- The `INSERT` of an upsert cannot hit the unique index. -/
theorem exists_insert_toRow
    {s : Store} (hnone : s.byServerId input.serverMessageId = none) (now : Int) :
    ∃ t, s.message.insert (input.toRow now) (fun _ => rfl) =
      some (t, s.message.nextRowid) := by
  cases hi : s.message.insert (input.toRow now) (fun _ => rfl) with
  | some p =>
      obtain ⟨t, n⟩ := p
      rw [(Table.rows_of_insert hi).1]
      exact ⟨t, rfl⟩
  | none =>
      obtain ⟨r, hr, k, hkr, hk⟩ := (Table.insert_eq_none_iff _ _ _).mp hi
      simp only [mem_keys_message, UpsertRemoteMessageInput.toRow,
        Option.some.injEq] at hkr hk
      rw [← hk.1] at hkr
      exact absurd hkr.1 ((s.byServerId_eq_none_iff _).mp hnone r hr)

theorem applyRemoteRevokeFlag_cases
    {messageId : Nat} {env : Env} {s s' : Store}
    {res : Except StoreError PUnit}
    (h : applyRemoteRevokeFlag messageId input env s = (res, s')) :
    (∃ u, res = .ok u ∧ s' = s.takeRevoke messageId input env.now) ∨
      ∃ e, res = .error e ∧ e.onServerIdIndex = false ∧ s' = s ∧
        input.revoked = true ∧
          env.fault "mark remote message revoked" = true := by
  unfold applyRemoteRevokeFlag at h
  split at h
  · rename_i hrev
    rw [nowMs_bind] at h
    cases res with
    | ok u =>
        obtain ⟨-, rfl⟩ := exec_ok.mp h
        exact Or.inl ⟨u, rfl, by simp [Store.takeRevoke, hrev]⟩
    | error e =>
        have hfault := exec_fault h
        obtain ⟨rfl, he⟩ := exec_error h
        exact Or.inr ⟨e, rfl, he, rfl, hrev, hfault⟩
  · rename_i hrev
    cases h
    exact Or.inl ⟨.unit, rfl, by simp [Store.takeRevoke, hrev]⟩

/-- What `update_row` does once its target is known. -/
theorem updateRow_outcome
    {s : Store} {base : Table MessageRow} {row : MessageRow} {env : Env}
    (hpos : 0 < input.serverMessageId)
    (htarget : UpsertTarget currentUid input s base row)
    {s' : Store} {res : Except StoreError UpsertRemoteMessageResult}
    (h : updateRow row.id input env.now env { s with message := base } =
      (res, s')) :
    UpsertOutcome currentUid input env s res s' := by
  obtain ⟨t, ht⟩ := htarget.exists_update hpos env.now
  unfold updateRow at h
  cases res with
  | ok v =>
      obtain ⟨n, s₁, hu, hrest⟩ := Exec.bind_ok.mp h
      obtain ⟨u, s₂, hflag, hrest⟩ := Exec.bind_ok.mp hrest
      cases hrest
      obtain ⟨t', ht', -, rfl⟩ := updateMessage_ok hu
      rcases applyRemoteRevokeFlag_cases hflag with ⟨_, -, rfl⟩ | ⟨e, he, -⟩
      · exact .written base t' row hpos htarget ht'
      · cases he
  | error e =>
      rcases Exec.bind_error.mp h with hu | ⟨n, s₁, hu, hrest⟩
      · obtain ⟨rfl, hcon⟩ := updateMessage_error hu
        refine .dropped e base row ?_ hpos htarget
        by_contra hc
        have hnone := hcon (by simpa using hc)
        rw [ht] at hnone
        cases hnone
      · obtain ⟨t', ht', -, rfl⟩ := updateMessage_ok hu
        rcases Exec.bind_error.mp hrest with hflag | ⟨u, s₂, -, hp⟩
        · rcases applyRemoteRevokeFlag_cases hflag with
            ⟨_, he, -⟩ | ⟨e', he, hidx, rfl, hrev⟩
          · cases he
          · cases he
            exact .unflagged e base t' row hidx hpos htarget ht' hrev
        · cases hp

/-- What the `INSERT` branch does. -/
theorem insertRow_outcome
    {s : Store} {env : Env}
    (hpos : 0 < input.serverMessageId)
    (hnone : s.byServerId input.serverMessageId = none)
    (hnoneLocal : s.byInputLocalId currentUid input = none)
    {s' : Store} {res : Except StoreError UpsertRemoteMessageResult}
    (h : insertRow input env.now env s = (res, s')) :
    UpsertOutcome currentUid input env s res s' := by
  obtain ⟨t, ht⟩ := exists_insert_toRow hnone env.now
  unfold insertRow at h
  cases res with
  | ok v =>
      obtain ⟨n, s₁, hi, hrest⟩ := Exec.bind_ok.mp h
      obtain ⟨u, s₂, hflag, hrest⟩ := Exec.bind_ok.mp hrest
      cases hrest
      obtain ⟨t', ht', rfl⟩ := insertMessage_ok hi
      rw [ht] at ht'
      cases ht'
      rcases applyRemoteRevokeFlag_cases hflag with ⟨_, -, rfl⟩ | ⟨e, he, -⟩
      · exact .inserted t hpos hnone hnoneLocal ht
      · cases he
  | error e =>
      rcases Exec.bind_error.mp h with hi | ⟨n, s₁, hi, hrest⟩
      · obtain ⟨rfl, hcon⟩ := insertMessage_error hi
        refine .failed e ?_
        by_contra hc
        have hnone' := hcon (by simpa using hc)
        rw [ht] at hnone'
        cases hnone'
      · obtain ⟨t', ht', rfl⟩ := insertMessage_ok hi
        rw [ht] at ht'
        cases ht'
        rcases Exec.bind_error.mp hrest with hflag | ⟨u, s₂, -, hp⟩
        · rcases applyRemoteRevokeFlag_cases hflag with
            ⟨_, he, -⟩ | ⟨e', he, hidx, rfl, hrev⟩
          · cases he
          · cases he
            exact .insertedUnflagged e t hidx hpos hnone hnoneLocal ht hrev
        · cases hp

theorem upsertFound_outcome
    {env : Env} {s s' : Store}
    {res : Except StoreError UpsertRemoteMessageResult}
    (hpos : 0 < input.serverMessageId)
    (h : upsertFound input env.now (s.byServerId input.serverMessageId)
      (s.byInputLocalId currentUid input) env s = (res, s')) :
    UpsertOutcome currentUid input env s res s' := by
  cases hrow : s.byServerId input.serverMessageId with
  | some row =>
      cases hlocal : s.byInputLocalId currentUid input with
      | some localRow =>
          simp only [upsertFound, hrow, hlocal] at h
          split at h
          · rename_i hstale
            cases h
            exact .stale row hpos (Or.inl hrow) hstale
          · rename_i hfresh
            have hfresh' : input.stale row = false := by simpa using hfresh
            split at h
            · rename_i hne
              have htarget := UpsertTarget.merge row localRow hrow hfresh'
                hlocal hne
              rw [Exec.bind_run] at h
              split at h
              · rename_i u s₁ hd
                obtain ⟨-, rfl⟩ := exec_ok.mp hd
                exact updateRow_outcome hpos htarget h
              · rename_i e s₁ hd
                cases h
                obtain ⟨rfl, he⟩ := exec_error hd
                exact .failed e he
            · rename_i heq
              have htarget : UpsertTarget currentUid input s s.message row :=
                .byServerId row hrow hfresh' (by
                  intro l hl
                  rw [hlocal] at hl
                  cases hl
                  simpa using heq)
              exact updateRow_outcome hpos htarget h
      | none =>
          simp only [upsertFound, hrow, hlocal] at h
          split at h
          · rename_i hstale
            cases h
            exact .stale row hpos (Or.inl hrow) hstale
          · rename_i hfresh
            have htarget : UpsertTarget currentUid input s s.message row :=
              .byServerId row hrow (by simpa using hfresh) (by simp [hlocal])
            exact updateRow_outcome hpos htarget h
  | none =>
      cases hlocal : s.byInputLocalId currentUid input with
      | some localRow =>
          simp only [upsertFound, hrow, hlocal] at h
          split at h
          · rename_i hstale
            cases h
            exact .stale localRow hpos (Or.inr ⟨hrow, hlocal⟩) hstale
          · rename_i hfresh
            have htarget := UpsertTarget.byLocalId localRow hrow hlocal
              (by simpa using hfresh)
            exact updateRow_outcome hpos htarget h
      | none =>
          simp only [upsertFound, hrow, hlocal] at h
          exact insertRow_outcome hpos hrow hlocal h

theorem queryByLocalId_ok
    {env : Env} {s s' : Store} {found : Option MessageRow}
    (h : queryByLocalId currentUid input env s = (.ok found, s')) :
    s.byInputLocalId currentUid input = found ∧ s = s' := by
  unfold queryByLocalId at h
  unfold Store.byInputLocalId
  split at h
  · rename_i hid
    obtain ⟨-, rfl, rfl⟩ := query_ok.mp h
    simp [hid]
  · rename_i hid
    cases h
    simp [hid]

theorem queryByLocalId_error
    {env : Env} {s s' : Store} {e : StoreError}
    (h : queryByLocalId currentUid input env s = (.error e, s')) :
    s' = s ∧ e.onServerIdIndex = false := by
  unfold queryByLocalId at h
  split at h
  · exact query_error h
  · cases h

/-- The upsert does one of the listed things. -/
theorem upsert_outcome
    {env : Env} {s s' : Store}
    {res : Except StoreError UpsertRemoteMessageResult}
    (h : upsertRemoteMessageWithResult currentUid input env s = (res, s')) :
    UpsertOutcome currentUid input env s res s' := by
  unfold upsertRemoteMessageWithResult at h
  split at h
  · cases h
    exact .failed _ rfl
  · rename_i hpos
    rw [nowMs_bind, Exec.bind_run] at h
    split at h
    · rename_i existed s₁ hq
      obtain ⟨-, rfl, rfl⟩ := query_ok.mp hq
      rw [Exec.bind_run] at h
      split at h
      · rename_i existedByLocal s₂ hq₂
        obtain ⟨rfl, rfl⟩ := queryByLocalId_ok hq₂
        exact upsertFound_outcome (by omega) h
      · rename_i e s₂ hq₂
        cases h
        obtain ⟨rfl, he⟩ := queryByLocalId_error hq₂
        exact .failed e he
    · rename_i e s₁ hq
      cases h
      obtain ⟨rfl, he⟩ := query_error hq
      exact .failed e he

@[simp] theorem Store.takeRevoke_message
    (s : Store) (messageId : Nat) (input : UpsertRemoteMessageInput)
    (now : Int) :
    (s.takeRevoke messageId input now).message = s.message := by
  unfold Store.takeRevoke
  split
  · rfl
  · rfl

@[simp] theorem Store.takeRevoke_outbox
    (s : Store) (messageId : Nat) (input : UpsertRemoteMessageInput)
    (now : Int) :
    (s.takeRevoke messageId input now).outbox = s.outbox := by
  unfold Store.takeRevoke
  split
  · rfl
  · rfl

/-- The message table after an upsert, without regard to the revoke flag. -/
inductive UpsertedMessages
    (currentUid : Option Nat) (input : UpsertRemoteMessageInput)
    (now : Int) (s : Store) : Table MessageRow → Prop
  | same (t : Table MessageRow) (hsame : t = s.message) :
      UpsertedMessages currentUid input now s t
  | dropped (base : Table MessageRow) (row : MessageRow)
      (hpos : 0 < input.serverMessageId)
      (htarget : UpsertTarget currentUid input s base row) :
      UpsertedMessages currentUid input now s base
  | written (base t : Table MessageRow) (row : MessageRow)
      (hpos : 0 < input.serverMessageId)
      (htarget : UpsertTarget currentUid input s base row)
      (ht : base.update (fun r => Record.rowid r == row.id)
        (input.overwrite now) (fun _ => rfl) = some t) :
      UpsertedMessages currentUid input now s t
  | inserted (t : Table MessageRow)
      (hpos : 0 < input.serverMessageId)
      (hnone : s.byServerId input.serverMessageId = none)
      (hnoneLocal : s.byInputLocalId currentUid input = none)
      (ht : s.message.insert (input.toRow now) (fun _ => rfl) =
        some (t, s.message.nextRowid)) :
      UpsertedMessages currentUid input now s t

/-- An upsert touches messages and extras only and never hits the index. -/
theorem upsert_messages
    {env : Env} {s s' : Store}
    {res : Except StoreError UpsertRemoteMessageResult}
    (h : upsertRemoteMessageWithResult currentUid input env s = (res, s')) :
    UpsertedMessages currentUid input env.now s s'.message ∧
      s'.outbox = s.outbox ∧
      ∀ e, res = .error e → e.onServerIdIndex = false := by
  cases upsert_outcome h with
  | failed e he =>
      exact ⟨.same _ rfl, rfl, by rintro _ ⟨⟩; exact he⟩
  | stale row hpos hrow hstale =>
      exact ⟨.same _ rfl, rfl, by rintro _ ⟨⟩⟩
  | dropped e base row he hpos htarget =>
      exact ⟨.dropped base row hpos htarget, rfl, by rintro _ ⟨⟩; exact he⟩
  | unflagged e base t row he hpos htarget ht hrevoked =>
      exact ⟨.written base t row hpos htarget ht, rfl,
        by rintro _ ⟨⟩; exact he⟩
  | written base t row hpos htarget ht =>
      refine ⟨?_, by simp, by rintro _ ⟨⟩⟩
      rw [Store.takeRevoke_message]
      exact .written base t row hpos htarget ht
  | insertedUnflagged e t he hpos hnone hnoneLocal ht hrevoked =>
      exact ⟨.inserted t hpos hnone hnoneLocal ht, rfl,
        by rintro _ ⟨⟩; exact he⟩
  | inserted t hpos hnone hnoneLocal ht =>
      refine ⟨?_, by simp, by rintro _ ⟨⟩⟩
      rw [Store.takeRevoke_message]
      exact .inserted t hpos hnone hnoneLocal ht

/-- The target of an upsert is a stored row of the table that is written. -/
theorem UpsertTarget.byRowid
    {s : Store} {base : Table MessageRow} {row : MessageRow}
    (hpos : 0 < input.serverMessageId)
    (h : UpsertTarget currentUid input s base row) :
    base.byRowid row.id = some row ∧ s.message.byRowid row.id = some row :=
  ⟨(base.byRowid_eq_some_iff _ _).mpr ⟨(h.mem hpos).1, rfl⟩,
    (s.message.byRowid_eq_some_iff _ _).mpr ⟨(h.mem hpos).2.1, rfl⟩⟩

/-- The table that is written holds no row that was not there. -/
theorem UpsertTarget.byRowid_base
    {s : Store} {base : Table MessageRow} {row r : MessageRow} {n : Nat}
    (h : UpsertTarget currentUid input s base row)
    (hr : base.byRowid n = some r) :
    s.message.byRowid n = some r := by
  cases h with
  | byServerId => exact hr
  | byLocalId => exact hr
  | merge =>
      rw [Table.byRowid_deleteWhere, Option.filter_eq_some_iff] at hr
      exact hr.1

theorem UpsertTarget.nextRowid
    {s : Store} {base : Table MessageRow} {row : MessageRow}
    (h : UpsertTarget currentUid input s base row) :
    base.nextRowid = s.message.nextRowid := by
  cases h with
  | byServerId => rfl
  | byLocalId => rfl
  | merge => rfl

/-- A row after an upsert: as it was, overwritten by the input, or the new one. -/
theorem UpsertedMessages.row_cases
    {now : Int} {s : Store} {t : Table MessageRow}
    (h : UpsertedMessages currentUid input now s t)
    {n : Nat} {row' : MessageRow} (hrow' : t.byRowid n = some row') :
    s.message.byRowid n = some row' ∨
      (∃ base row, 0 < input.serverMessageId ∧
        UpsertTarget currentUid input s base row ∧ row.id = n ∧
        s.message.byRowid n = some row ∧ row' = input.overwrite now row) ∨
      (n = s.message.nextRowid ∧ row' = input.toRow now n) := by
  cases h with
  | same _ hsame =>
      rw [hsame] at hrow'
      exact Or.inl hrow'
  | dropped _ row hpos htarget =>
      exact Or.inl (htarget.byRowid_base hrow')
  | written base _ row hpos htarget ht =>
      rw [byRowid_of_update ht, Option.map_eq_some_iff] at hrow'
      obtain ⟨row₀, hrow₀, rfl⟩ := hrow'
      have hold := htarget.byRowid_base hrow₀
      by_cases hid : row₀.id = row.id
      · have hn : row₀.id = n := ((base.byRowid_eq_some_iff _ _).mp hrow₀).2
        have hself := (htarget.byRowid hpos).2
        rw [← hid, hn, hold] at hself
        cases hself
        exact Or.inr (Or.inl
          ⟨base, row, hpos, htarget, hn, hold, by simp⟩)
      · simp only [rowid_message, hid, beq_iff_eq, if_false]
        exact Or.inl hold
  | inserted _ hpos hnone hnoneLocal ht =>
      obtain ⟨-, hrows, -⟩ := Table.rows_of_insert ht
      rw [Table.byRowid_of_append (fun _ => rfl) hrows] at hrow'
      split at hrow'
      · rename_i hn
        cases hrow'
        exact Or.inr (Or.inr ⟨hn, by rw [hn]⟩)
      · exact Or.inl hrow'

theorem UpsertedMessages.nextRowid_le
    {now : Int} {s : Store} {t : Table MessageRow}
    (h : UpsertedMessages currentUid input now s t) :
    s.message.nextRowid ≤ t.nextRowid := by
  cases h with
  | same _ hsame =>
      exact Nat.le_of_eq (by rw [hsame])
  | dropped _ row hpos htarget =>
      exact Nat.le_of_eq htarget.nextRowid.symm
  | written base _ row hpos htarget ht =>
      rw [(Table.rows_of_update ht).2]
      exact Nat.le_of_eq htarget.nextRowid.symm
  | inserted _ hpos hnone hnoneLocal ht =>
      rw [(Table.rows_of_insert ht).2.2]
      exact Nat.le_succ _

end Outcome

section Batch

/-- The store after one upsert, whether it succeeds or fails. -/
def Store.afterUpsert
    (currentUid : Option Nat) (env : Env) (s : Store)
    (input : UpsertRemoteMessageInput) : Store :=
  (upsertRemoteMessageWithResult currentUid input).after env s

theorem upsertedMessages_afterUpsert
    (currentUid : Option Nat) (input : UpsertRemoteMessageInput)
    (env : Env) (s : Store) :
    UpsertedMessages currentUid input env.now s
      (s.afterUpsert currentUid env input).message :=
  (upsert_messages rfl).1

/-- The two copies of the upsert do the same to every store. -/
theorem upsertOneInTx_eq
    (currentUid : Option Nat) (input : UpsertRemoteMessageInput)
    (env : Env) (s : Store) :
    upsertOneInTx input env.now currentUid env s =
      upsertRemoteMessageWithResult currentUid input env s := by
  have hidentity : ((currentUid.map (· == input.fromUid)).getD false &&
      decide (0 < input.localMessageId)) = input.hasLocalIdentity currentUid := by
    cases currentUid with
    | none =>
        rfl
    | some uid =>
        rfl
  have hupdate (rowId : Nat) (now : Int) :
      (do
        updateRowInTx input now rowId
        pure { messageId := rowId, insertedNew := false } :
          StoreM UpsertRemoteMessageResult) = updateRow rowId input now := by
    simp only [updateRowInTx, updateRow, Exec.bind_assoc]
  unfold upsertOneInTx upsertRemoteMessageWithResult
  split
  · rfl
  rw [nowMs_bind]
  simp only [hidentity, hupdate, queryByLocalId]
  refine congrFun (congrFun (congrArg _ (funext fun existed => ?_)) env) s
  refine congrArg _ (funext fun existedByLocal => ?_)
  cases existed with
  | some row =>
      cases existedByLocal with
      | some localRow =>
          by_cases hid : localRow.id = row.id
          · simp [upsertFound, Option.filter, hid]
          · simp [upsertFound, Option.filter, hid]
      | none =>
          rfl
  | none =>
      cases existedByLocal with
      | some row =>
          rfl
      | none =>
          rfl

theorem upsertEach_run
    (currentUid : Option Nat) (inputs : List UpsertRemoteMessageInput)
    (env : Env) (s : Store) :
    ∃ results, upsertEach currentUid inputs env s =
      (.ok results, EventRun.run (Store.afterUpsert currentUid env) s inputs) := by
  induction inputs generalizing s with
  | nil =>
      exact ⟨[], rfl⟩
  | cons input inputs ih =>
      obtain ⟨results, hrun⟩ := ih (Store.afterUpsert currentUid env s input)
      refine ⟨(upsertRemoteMessageWithResult currentUid input env s).1 ::
        results, ?_⟩
      unfold upsertEach
      refine Exec.bind_ok.mpr ⟨_, _, rfl, ?_⟩
      exact Exec.bind_ok.mpr ⟨_, _, hrun, rfl⟩

/-- A batch item by item is the single upsert of each item. -/
theorem upsertEachInTx_eq
    (currentUid : Option Nat) (inputs : List UpsertRemoteMessageInput)
    (env : Env) (s : Store) :
    upsertEachInTx env.now currentUid inputs env s =
      upsertEach currentUid inputs env s := by
  induction inputs generalizing s with
  | nil =>
      rfl
  | cons input inputs ih =>
      have hitem : (upsertOneInTx input env.now currentUid).attempt env s =
          (upsertRemoteMessageWithResult currentUid input).attempt env s := by
        simp only [Exec.attempt, upsertOneInTx_eq]
      simp only [upsertEachInTx, upsertEach, Exec.bind_run, hitem]
      simp only [Exec.attempt, ih]

/-- A batch does what its fallback does, whether its transaction commits or not. -/
theorem batchUpsert_eq_upsertEach
    (currentUid : Option Nat) (inputs : List UpsertRemoteMessageInput)
    (env : Env) (s : Store) :
    batchUpsertRemoteMessages currentUid inputs env s =
      upsertEach currentUid inputs env s := by
  unfold batchUpsertRemoteMessages
  cases inputs with
  | nil =>
      rfl
  | cons input inputs =>
      rw [List.isEmpty_cons, if_neg Bool.false_ne_true]
      cases h : batchUpsertInner currentUid (input :: inputs) env s with
      | mk res s' =>
      cases res with
      | ok results =>
          have hbody := withTx_ok h
          rw [nowMs_bind, upsertEachInTx_eq] at hbody
          rw [Exec.recover_of_ok h, hbody]
      | error e =>
          rw [Exec.recover_of_error h, withTx_error h]

/--
A batch leaves the store that its items leave when they are upserted one after
another, whether its transaction commits or not.
-/
theorem after_batchUpsert
    (currentUid : Option Nat) (inputs : List UpsertRemoteMessageInput)
    (env : Env) (s : Store) :
    (batchUpsertRemoteMessages currentUid inputs).after env s =
      EventRun.run (Store.afterUpsert currentUid env) s inputs := by
  obtain ⟨results, hrun⟩ := upsertEach_run currentUid inputs env s
  unfold Exec.after
  rw [batchUpsert_eq_upsertEach, hrun]

/-- Call the single upsert for one input after the other. -/
def upsertSingly (currentUid : Option Nat) (env : Env) :
    Store → List UpsertRemoteMessageInput →
      List (Except StoreError UpsertRemoteMessageResult) × Store
  | s, [] => ([], s)
  | s, input :: inputs =>
      let (result, s₁) := upsertRemoteMessageWithResult currentUid input env s
      let (results, s₂) := upsertSingly currentUid env s₁ inputs
      (result :: results, s₂)

/--
A batch returns what the single upserts of its items return and leaves the store
that they leave, for items that fail and items that meet in one row as well.
-/
theorem batchUpsert_eq_upsertSingly
    (currentUid : Option Nat) (inputs : List UpsertRemoteMessageInput)
    (env : Env) (s : Store) :
    batchUpsertRemoteMessages currentUid inputs env s =
      (.ok (upsertSingly currentUid env s inputs).1,
        (upsertSingly currentUid env s inputs).2) := by
  rw [batchUpsert_eq_upsertEach]
  induction inputs generalizing s with
  | nil =>
      rfl
  | cons input inputs ih =>
      simp only [upsertEach, Exec.bind_run, Exec.attempt, ih, upsertSingly]
      rfl

end Batch

section Calm

variable {currentUid : Option Nat} {input : UpsertRemoteMessageInput}
variable {s : Store} {now : Int}

theorem applyRemoteRevokeFlag_calm
    (input : UpsertRemoteMessageInput) (now : Int) (messageId : Nat) (s : Store) :
    ∃ s', applyRemoteRevokeFlag messageId input (.calm now) s =
      (.ok .unit, s') := by
  unfold applyRemoteRevokeFlag
  split
  · rw [nowMs_bind]
    exact ⟨_, exec_ok.mpr ⟨rfl, rfl⟩⟩
  · exact ⟨s, rfl⟩

theorem updateRow_calm
    {messageId : Nat} {t : Table MessageRow}
    (ht : s.message.update (fun r => Record.rowid r == messageId)
      (input.overwrite now) (fun _ => rfl) = some t) :
    ∃ r s', updateRow messageId input now (.calm now) s = (.ok r, s') := by
  obtain ⟨s', hflag⟩ := applyRemoteRevokeFlag_calm input now messageId
    { s with message := t }
  have hupdate : updateMessage "update remote message" messageId
      (input.overwrite now) (fun _ => rfl) (.calm now) s =
        (.ok (s.message.rows.countP (fun r => Record.rowid r == messageId)),
          { s with message := t }) := by
    refine stmt_ok.mpr ⟨rfl, ?_⟩
    rw [ht]
  refine ⟨{ messageId := messageId, insertedNew := false }, s', ?_⟩
  exact Exec.bind_ok.mpr ⟨_, _, hupdate, Exec.bind_ok.mpr ⟨_, _, hflag, rfl⟩⟩

theorem insertRow_calm
    {t : Table MessageRow} {n : Nat}
    (ht : s.message.insert (input.toRow now) (fun _ => rfl) = some (t, n)) :
    ∃ r s', insertRow input now (.calm now) s = (.ok r, s') := by
  obtain ⟨s', hflag⟩ := applyRemoteRevokeFlag_calm input now n
    { s with message := t }
  have hinsert : insertMessage "insert remote message" (input.toRow now)
      (fun _ => rfl) (.calm now) s = (.ok n, { s with message := t }) := by
    refine stmt_ok.mpr ⟨rfl, ?_⟩
    rw [ht]
  refine ⟨{ messageId := n, insertedNew := true }, s', ?_⟩
  exact Exec.bind_ok.mpr ⟨_, _, hinsert, Exec.bind_ok.mpr ⟨_, _, hflag, rfl⟩⟩

theorem upsertFound_calm
    (currentUid : Option Nat) (s : Store) (now : Int)
    (hpos : 0 < input.serverMessageId) :
    ∃ r s', upsertFound input now (s.byServerId input.serverMessageId)
      (s.byInputLocalId currentUid input) (.calm now) s = (.ok r, s') := by
  have hwrite {base : Table MessageRow} {row : MessageRow}
      (htarget : UpsertTarget currentUid input s base row) :
      ∃ r s', updateRow row.id input now (.calm now) { s with message := base } =
        (.ok r, s') := by
    obtain ⟨t, ht⟩ := htarget.exists_update hpos now
    exact updateRow_calm ht
  cases hrow : s.byServerId input.serverMessageId with
  | some row =>
      cases hlocal : s.byInputLocalId currentUid input with
      | some localRow =>
          simp only [upsertFound]
          by_cases hstale : input.stale row = true
          · rw [if_pos hstale]
            exact ⟨_, s, rfl⟩
          rw [if_neg hstale]
          by_cases hne : localRow.id ≠ row.id
          · rw [if_pos hne]
            obtain ⟨r, s', hr⟩ := hwrite
              (.merge row localRow hrow (by simpa using hstale) hlocal hne)
            exact ⟨r, s', Exec.bind_ok.mpr ⟨.unit, _, exec_ok.mpr ⟨rfl, rfl⟩, hr⟩⟩
          · rw [if_neg hne]
            exact hwrite (.byServerId row hrow (by simpa using hstale)
              (fun l hl => by
                rw [hlocal] at hl
                cases hl
                simpa using hne))
      | none =>
          simp only [upsertFound]
          by_cases hstale : input.stale row = true
          · rw [if_pos hstale]
            exact ⟨_, s, rfl⟩
          · rw [if_neg hstale]
            exact hwrite (.byServerId row hrow (by simpa using hstale)
              (by simp [hlocal]))
  | none =>
      cases hlocal : s.byInputLocalId currentUid input with
      | some localRow =>
          simp only [upsertFound]
          by_cases hstale : input.stale localRow = true
          · rw [if_pos hstale]
            exact ⟨_, s, rfl⟩
          · rw [if_neg hstale]
            exact hwrite (.byLocalId localRow hrow hlocal (by simpa using hstale))
      | none =>
          obtain ⟨t, ht⟩ := exists_insert_toRow hrow now
          exact insertRow_calm ht

/-- Where no statement fails, an upsert of a confirmed message succeeds. -/
theorem upsert_calm_ok
    (input : UpsertRemoteMessageInput) (currentUid : Option Nat) (s : Store) (now : Int)
    (hpos : 0 < input.serverMessageId) :
    ∃ r s', upsertRemoteMessageWithResult currentUid input (.calm now) s =
      (.ok r, s') := by
  obtain ⟨r, s', hfound⟩ := upsertFound_calm currentUid s now hpos
  refine ⟨r, s', ?_⟩
  unfold upsertRemoteMessageWithResult
  rw [if_neg (by omega), nowMs_bind]
  refine Exec.bind_ok.mpr ⟨_, s, query_ok.mpr ⟨rfl, rfl, rfl⟩, ?_⟩
  have hlocal : queryByLocalId currentUid input (.calm now) s =
      (.ok (s.byInputLocalId currentUid input), s) := by
    unfold queryByLocalId Store.byInputLocalId
    split
    · exact query_ok.mpr ⟨rfl, rfl, rfl⟩
    · rfl
  exact Exec.bind_ok.mpr ⟨_, s, hlocal, hfound⟩

/-- What an upsert does where no statement fails. -/
theorem afterUpsert_calm
    (currentUid : Option Nat) (s : Store) (now : Int)
    (hpos : 0 < input.serverMessageId) :
    (∃ row, (s.byServerId input.serverMessageId = some row ∨
        s.byServerId input.serverMessageId = none ∧
          s.byInputLocalId currentUid input = some row) ∧
      input.stale row = true ∧
      s.afterUpsert currentUid (.calm now) input = s) ∨
    (∃ base t row, UpsertTarget currentUid input s base row ∧
      base.update (fun r => Record.rowid r == row.id) (input.overwrite now)
        (fun _ => rfl) = some t ∧
      s.afterUpsert currentUid (.calm now) input =
        Store.takeRevoke { s with message := t } row.id input now) ∨
    (∃ t, s.byServerId input.serverMessageId = none ∧
      s.byInputLocalId currentUid input = none ∧
      s.message.insert (input.toRow now) (fun _ => rfl) =
        some (t, s.message.nextRowid) ∧
      s.afterUpsert currentUid (.calm now) input =
        Store.takeRevoke { s with message := t } s.message.nextRowid input
          now) := by
  obtain ⟨r, s', hrun⟩ := upsert_calm_ok input currentUid s now hpos
  have hafter : s.afterUpsert currentUid (.calm now) input = s' := by
    simp [Store.afterUpsert, Exec.after, hrun]
  rw [hafter]
  cases upsert_outcome hrun with
  | stale row hpos hrow hstale =>
      exact Or.inl ⟨row, hrow, hstale, rfl⟩
  | written base t row hpos htarget ht =>
      exact Or.inr (Or.inl ⟨base, t, row, htarget, ht, rfl⟩)
  | inserted t hpos hnone hnoneLocal ht =>
      exact Or.inr (Or.inr ⟨t, hnone, hnoneLocal, ht, rfl⟩)

end Calm

end PrivchatSdk
