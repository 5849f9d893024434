import PrivchatSdk.Store.Rows

/-!
# Statements over messages and extras, and local creation

The statements that the operations on messages are made of, with what each can
end in, and the two operations that create a message of this device:
`createLocalMessage`, and `createLocalMessageQueued`, which writes the message
and its outbox command in one transaction.
-/

namespace PrivchatSdk

open StatementExec RelTable

section Inputs

/-- A message composed on this device. -/
structure NewMessage where
  channelId : Nat
  channelType : Int
  fromUid : Nat
  messageType : Int
  content : String
  searchableWord : String
  setting : Int
  extra : String
  mimeType : Option String
  mediaDownloaded : Bool
  thumbStatus : Int
  deriving DecidableEq, Repr

/-- A plain text message of a direct channel. -/
def NewMessage.text (channelId fromUid : Nat) (content : String) : NewMessage where
  channelId := channelId
  channelType := 1
  fromUid := fromUid
  messageType := 0
  content := content
  searchableWord := content
  setting := 0
  extra := ""
  mimeType := none
  mediaDownloaded := false
  thumbStatus := 0

end Inputs

section MessageStatements

variable (context : String)

/-- `UPDATE message` of columns outside the unique index; counts the rows hit. -/
def modifyMessage
    (p : MessageRow → Bool) (f : MessageRow → MessageRow)
    (hid : ∀ r, Record.rowid (f r) = Record.rowid r)
    (hkeys : ∀ r, Record.keys (f r) = Record.keys r) :
    StoreM Nat :=
  stmt context (fun s =>
    .ok (s.message.rows.countP p,
      { s with message := s.message.modify p f hid hkeys }))

/-- `UPDATE message .. WHERE id = ?` that may write `server_message_id`. -/
def updateMessage
    (messageId : Nat) (f : MessageRow → MessageRow)
    (hid : ∀ r, Record.rowid (f r) = Record.rowid r) :
    StoreM Nat :=
  stmt context (fun s =>
    match s.message.update (fun r => Record.rowid r == messageId) f hid with
    | some t =>
        .ok (s.message.rows.countP (fun r => Record.rowid r == messageId),
          { s with message := t })
    | none => .error (.constraint .messageServerId))

/-- `DELETE FROM message`. -/
def deleteMessage (p : MessageRow → Bool) : StoreM PUnit :=
  exec context (fun s => { s with message := s.message.deleteWhere p })

/-- `INSERT INTO message`; returns `last_insert_rowid`. -/
def insertMessage
    (mk : Nat → MessageRow) (hid : ∀ n, Record.rowid (mk n) = n) :
    StoreM Nat :=
  stmt context (fun s =>
    match s.message.insert mk hid with
    | some (t, n) => .ok (n, { s with message := t })
    | none => .error (.constraint .messageServerId))

variable {context}

theorem modifyMessage_ok
    {p : MessageRow → Bool} {f : MessageRow → MessageRow} {hid hkeys}
    {env : Env} {s s' : Store} {n : Nat} :
    modifyMessage context p f hid hkeys env s = (.ok n, s') ↔
      env.fault context = false ∧ s.message.rows.countP p = n ∧
        { s with message := s.message.modify p f hid hkeys } = s' := by
  simp [modifyMessage, stmt_ok]

theorem modifyMessage_error
    {p : MessageRow → Bool} {f : MessageRow → MessageRow} {hid hkeys}
    {env : Env} {s s' : Store} {e : StoreError}
    (h : modifyMessage context p f hid hkeys env s = (.error e, s')) :
    s' = s ∧ e.onServerIdIndex = false := by
  obtain ⟨rfl, ⟨-, rfl⟩ | ⟨cause, hc, -⟩⟩ := stmt_error h
  · exact ⟨rfl, rfl⟩
  · cases hc

theorem updateMessage_ok
    {messageId : Nat} {f : MessageRow → MessageRow} {hid}
    {env : Env} {s s' : Store} {n : Nat}
    (h : updateMessage context messageId f hid env s = (.ok n, s')) :
    ∃ t, s.message.update (fun r => Record.rowid r == messageId) f hid = some t ∧
      s.message.rows.countP (fun r => Record.rowid r == messageId) = n ∧
      s' = { s with message := t } := by
  obtain ⟨-, hb⟩ := stmt_ok.mp h
  split at hb
  · rename_i t ht
    cases hb
    exact ⟨t, ht, rfl, rfl⟩
  · cases hb

theorem updateMessage_error
    {messageId : Nat} {f : MessageRow → MessageRow} {hid}
    {env : Env} {s s' : Store} {e : StoreError}
    (h : updateMessage context messageId f hid env s = (.error e, s')) :
    s' = s ∧
      (e.onServerIdIndex = true →
        s.message.update (fun r => Record.rowid r == messageId) f hid = none) := by
  obtain ⟨rfl, ⟨-, rfl⟩ | ⟨cause, hc, rfl⟩⟩ := stmt_error h
  · exact ⟨rfl, fun hcon => by cases hcon⟩
  · split at hc
    · cases hc
    · rename_i hnone
      exact ⟨rfl, fun _ => hnone⟩

theorem insertMessage_ok
    {mk : Nat → MessageRow} {hid} {env : Env} {s s' : Store} {n : Nat}
    (h : insertMessage context mk hid env s = (.ok n, s')) :
    ∃ t, s.message.insert mk hid = some (t, n) ∧
      s' = { s with message := t } := by
  obtain ⟨-, hb⟩ := stmt_ok.mp h
  split at hb
  · rename_i t m ht
    cases hb
    exact ⟨t, ht, rfl⟩
  · cases hb

theorem insertMessage_error
    {mk : Nat → MessageRow} {hid} {env : Env} {s s' : Store} {e : StoreError}
    (h : insertMessage context mk hid env s = (.error e, s')) :
    s' = s ∧ (e.onServerIdIndex = true → s.message.insert mk hid = none) := by
  obtain ⟨rfl, ⟨-, rfl⟩ | ⟨cause, hc, rfl⟩⟩ := stmt_error h
  · exact ⟨rfl, fun hcon => by cases hcon⟩
  · split at hc
    · cases hc
    · rename_i hnone
      exact ⟨rfl, fun _ => hnone⟩

/-- The rows after the update of one row. -/
theorem byRowid_of_update
    {base t : Table MessageRow} {messageId : Nat}
    {f : MessageRow → MessageRow} {hid}
    (ht : base.update (fun r => Record.rowid r == messageId) f hid = some t)
    (n : Nat) :
    t.byRowid n = (base.byRowid n).map
      (fun r => if Record.rowid r == messageId then f r else r) :=
  Table.byRowid_of_updatedRows hid (Table.rows_of_update ht).1 n

theorem byRowid_isSome_of_update
    {base t : Table MessageRow} {messageId : Nat}
    {f : MessageRow → MessageRow} {hid}
    (ht : base.update (fun r => Record.rowid r == messageId) f hid = some t)
    (n : Nat) :
    (t.byRowid n).isSome = (base.byRowid n).isSome := by
  rw [byRowid_of_update ht]
  simp

/-- A row after the update of one row is that row updated or another, as it was. -/
theorem mem_of_update
    {base t : Table MessageRow} {messageId : Nat}
    {f : MessageRow → MessageRow} {hid}
    (ht : base.update (fun r => Record.rowid r == messageId) f hid = some t)
    {r : MessageRow} (hr : r ∈ t.rows) :
    (∃ r₀ ∈ base.rows, r₀.id = messageId ∧ r = f r₀) ∨
      (r ∈ base.rows ∧ r.id ≠ messageId) := by
  rw [(Table.rows_of_update ht).1, Table.mem_updatedRows] at hr
  obtain ⟨r₀, hr₀, rfl⟩ := hr
  by_cases hid₀ : r₀.id = messageId
  · exact Or.inl ⟨r₀, hr₀, hid₀, by simp [hid₀]⟩
  · exact Or.inr ⟨by simpa [hid₀] using hr₀, by simp [hid₀]⟩

theorem MessageRow.rowid_status (status now : Int) (r : MessageRow) :
    Record.rowid { r with status := status, updatedAt := now } = Record.rowid r := by
  rfl

theorem MessageRow.keys_status (status now : Int) (r : MessageRow) :
    Record.keys { r with status := status, updatedAt := now } = Record.keys r := by
  rfl

theorem MessageRow.rowid_localId (localMessageId : Nat) (now : Int) (r : MessageRow) :
    Record.rowid { r with localMessageId := localMessageId, updatedAt := now } =
      Record.rowid r := by
  rfl

theorem MessageRow.keys_localId (localMessageId : Nat) (now : Int) (r : MessageRow) :
    Record.keys { r with localMessageId := localMessageId, updatedAt := now } =
      Record.keys r := by
  rfl

/-- Set the status of a message. -/
def Store.withStatus (s : Store) (messageId : Nat) (status now : Int) :
    Table MessageRow :=
  s.message.modify (fun r => r.id == messageId)
    (fun r => { r with status := status, updatedAt := now })
    (MessageRow.rowid_status status now) (MessageRow.keys_status status now)

end MessageStatements

section ExtraStatements

/-- Column values written to a `message_extra` row; its identity stays. -/
structure ExtraWrite where
  apply : MessageExtraRow → MessageExtraRow
  id_apply : ∀ r, (apply r).id = r.id := by intro r; rfl
  messageId_apply : ∀ r, (apply r).messageId = r.messageId := by intro r; rfl

/-- A `message_extra` row with the column defaults of the schema. -/
def MessageExtraRow.new
    (messageId channelId : Nat) (channelType : Int) (id : Nat) :
    MessageExtraRow where
  id := id
  messageId := messageId
  channelId := channelId
  channelType := channelType
  readed := false
  readedCount := 0
  unreadCount := 0
  revoke := false
  revoker := none
  extraVersion := 0
  isMutualDeleted := false
  contentEdit := none
  editedAt := 0
  needUpload := false
  isPinned := false
  delivered := false
  deliveredAt := 0

/-- `INSERT INTO message_extra .. ON CONFLICT(message_id) DO UPDATE`. -/
def upsertedExtra
    (t : Table MessageExtraRow)
    (messageId channelId : Nat) (channelType : Int)
    (ins upd : ExtraWrite) :
    Table MessageExtraRow :=
  t.upsert messageId
    (fun n => ins.apply (.new messageId channelId channelType n))
    upd.apply
    (fun n => ins.id_apply _)
    (fun n => by simp [ins.messageId_apply, MessageExtraRow.new])
    upd.id_apply
    (fun r => by simp [upd.messageId_apply])

/-- The row that an extra upsert leaves under its message id. -/
theorem lookup_upsertedExtra_self
    (t : Table MessageExtraRow)
    (messageId channelId : Nat) (channelType : Int)
    (ins upd : ExtraWrite) :
    (upsertedExtra t messageId channelId channelType ins upd).lookup messageId =
      some (((t.lookup messageId).map upd.apply).getD
        (ins.apply (.new messageId channelId channelType t.nextRowid))) :=
  Table.lookup_upsert_self

/-- An extra upsert leaves the extra rows of other messages alone. -/
theorem lookup_upsertedExtra_of_ne
    (t : Table MessageExtraRow)
    (messageId channelId : Nat) (channelType : Int)
    (ins upd : ExtraWrite) {other : Nat} (hne : other ≠ messageId) :
    (upsertedExtra t messageId channelId channelType ins upd).lookup other =
      t.lookup other := by
  refine Table.lookup_upsert_of_ne ?_ hne
  intro r hr
  simpa [eq_comm] using hr

/-- `COALESCE(message_extra.revoke, 0)` of a message. -/
def Store.revoke (s : Store) (messageId : Nat) : Bool :=
  (s.messageExtra.lookup messageId).any (fun x => x.revoke)

end ExtraStatements

section Create

/-- The row that the local `INSERT` statements write. -/
def NewMessage.toRow
    (input : NewMessage) (localMessageId : Nat) (status now : Int) (id : Nat) :
    MessageRow where
  id := id
  serverMessageId := none
  pts := 0
  channelId := input.channelId
  channelType := input.channelType
  timestamp := none
  fromUid := input.fromUid
  messageType := input.messageType
  content := input.content
  status := status
  createdAt := now
  updatedAt := now
  searchableWord := input.searchableWord
  localMessageId := localMessageId
  setting := input.setting
  orderSeq := 0
  extra := input.extra
  mimeType := input.mimeType
  mediaDownloaded := input.mediaDownloaded
  thumbStatus := input.thumbStatus
  createdAtPrecision := .milliseconds

/-- `create_local_message`. -/
def createLocalMessage
    (input : NewMessage) (localMessageId : Nat) : StoreM Nat := do
  let now ← nowMs
  insertMessage "insert message"
    (input.toRow localMessageId 0 now) (fun _ => rfl)

/-- A pending command as the `INSERT INTO outbox` statements write it. -/
def OutboxRow.pending
    (commandId : CommandId) (commandType : String) (messageId channelId : Nat)
    (payload : List UInt8) (routeKey : Option String) (now : Int) (id : Nat) :
    OutboxRow where
  id := id
  commandId := commandId
  commandType := commandType
  messageId := some messageId
  channelId := channelId
  payload := payload
  routeKey := routeKey
  status := "pending"
  retryCount := 0
  nextAttemptAt := 0
  lastError := none
  createdAt := now
  updatedAt := now

/-- A plain `INSERT INTO outbox`. -/
def insertOutbox (context : String) (mk : Nat → OutboxRow)
    (hid : ∀ n, Record.rowid (mk n) = n) : StoreM PUnit :=
  stmt context (fun s =>
    match s.outbox.insert mk hid with
    | some (t, _) => .ok (.unit, { s with outbox := t })
    | none => .error (.constraint .outbox))

/-- `create_local_message_queued`: the message and its command in one transaction. -/
def createLocalMessageQueued
    (input : NewMessage) (localMessageId : Nat) (commandType : String)
    (payload : List UInt8) (routeKey : Option String) : StoreM Nat :=
  if localMessageId = 0 then
    Exec.fail (.missingLocalMessageId 0)
  else
    withTx "create+enqueue begin tx" "create+enqueue commit" do
      let now ← nowMs
      let messageId ← insertMessage "create+enqueue insert message"
        (input.toRow localMessageId 1 now) (fun _ => rfl)
      insertOutbox "create+enqueue insert command"
        (OutboxRow.pending (.msg localMessageId) commandType messageId
          input.channelId payload routeKey now)
        (fun _ => rfl)
      pure messageId

theorem nowMs_bind {α : Type} (f : Int → StoreM α) (env : Env) (s : Store) :
    (nowMs >>= f) env s = f env.now env s := by
  rfl

/-- Without a server id no unique index over messages can refuse the row. -/
theorem insert_toRow
    (s : Store) (input : NewMessage) (localMessageId : Nat) (status now : Int) :
    ∃ t, s.message.insert (input.toRow localMessageId status now)
        (fun _ => rfl) = some (t, s.message.nextRowid) := by
  cases h : s.message.insert (input.toRow localMessageId status now)
      (fun _ => rfl) with
  | none =>
      obtain ⟨r, -, k, -, hk⟩ := (Table.insert_eq_none_iff _ _ _).mp h
      simp [NewMessage.toRow] at hk
  | some p =>
      obtain ⟨t, n⟩ := p
      rw [(Table.rows_of_insert h).1]
      exact ⟨t, rfl⟩

theorem fails_insert_toRow
    (context : String) (input : NewMessage) (localMessageId : Nat)
    (status now : Int) :
    (insertMessage context (input.toRow localMessageId status now)
      (fun _ => rfl)).Fails (fun e => e.onServerIdIndex = false) := by
  intro env s e s' h
  obtain ⟨t, ht⟩ := insert_toRow s input localMessageId status now
  by_contra hcon
  have hnone := (insertMessage_error h).2 (by simpa using hcon)
  rw [ht] at hnone
  cases hnone

theorem insertOutbox_ok
    {context : String} {mk : Nat → OutboxRow} {hid}
    {env : Env} {s s' : Store} {u : PUnit}
    (h : insertOutbox context mk hid env s = (.ok u, s')) :
    ∃ t n, s.outbox.insert mk hid = some (t, n) ∧
      s' = { s with outbox := t } := by
  obtain ⟨-, hb⟩ := stmt_ok.mp h
  split at hb
  · rename_i t n ht
    cases hb
    exact ⟨t, n, ht, rfl⟩
  · cases hb

theorem insertOutbox_error
    {context : String} {mk : Nat → OutboxRow} {hid}
    {env : Env} {s s' : Store} {e : StoreError}
    (h : insertOutbox context mk hid env s = (.error e, s')) :
    s' = s ∧ e.onServerIdIndex = false := by
  obtain ⟨rfl, ⟨-, rfl⟩ | ⟨cause, hc, rfl⟩⟩ := stmt_error h
  · exact ⟨rfl, rfl⟩
  · split at hc
    · cases hc
    · cases hc
      exact ⟨rfl, rfl⟩

/-- What a queued creation can do to the store. -/
inductive CreateQueuedOutcome
    (input : NewMessage) (localMessageId : Nat) (commandType : String)
    (payload : List UInt8) (routeKey : Option String) (env : Env) (s : Store) :
    Except StoreError Nat → Store → Prop
  | failed (e : StoreError) (he : e.onServerIdIndex = false) :
      CreateQueuedOutcome input localMessageId commandType payload routeKey
        env s (.error e) s
  | created
      (t : Table MessageRow) (o : Table OutboxRow) (n : Nat)
      (hpos : 0 < localMessageId)
      (ht : s.message.insert (input.toRow localMessageId 1 env.now)
        (fun _ => rfl) = some (t, s.message.nextRowid))
      (ho : s.outbox.insert
        (OutboxRow.pending (.msg localMessageId) commandType
          s.message.nextRowid input.channelId payload routeKey env.now)
        (fun _ => rfl) = some (o, n)) :
      CreateQueuedOutcome input localMessageId commandType payload routeKey
        env s (.ok s.message.nextRowid) { s with message := t, outbox := o }

/--
A queued creation writes both rows, under the same message id, or changes
nothing; it never reports a clash of server ids.
-/
theorem createLocalMessageQueued_outcome
    {input : NewMessage} {localMessageId : Nat} {commandType : String}
    {payload : List UInt8} {routeKey : Option String}
    {env : Env} {s s' : Store} {res : Except StoreError Nat}
    (h : createLocalMessageQueued input localMessageId commandType payload
      routeKey env s = (res, s')) :
    CreateQueuedOutcome input localMessageId commandType payload routeKey env s
      res s' := by
  unfold createLocalMessageQueued at h
  split at h
  · cases h
    exact .failed _ rfl
  · rename_i hpos
    cases res with
    | error e =>
        have hrestored := withTx_error h
        subst hrestored
        refine .failed e (fails_withTx ?_ _ _ _ _ h)
        refine Exec.Fails.bind (fun _ _ _ _ h => by cases h) (fun now => ?_)
        refine Exec.Fails.bind (fails_insert_toRow _ input _ _ _) (fun m => ?_)
        refine Exec.Fails.bind ?_ (fun _ => Exec.fails_pure _ m)
        exact fun _ _ _ _ h => (insertOutbox_error h).2
    | ok m =>
        have hbody := withTx_ok h
        rw [nowMs_bind] at hbody
        obtain ⟨m₁, s₁, hm, hrest⟩ := Exec.bind_ok.mp hbody
        obtain ⟨u, s₂, hcmd, hrest⟩ := Exec.bind_ok.mp hrest
        cases hrest
        obtain ⟨t, ht, rfl⟩ := insertMessage_ok hm
        obtain ⟨o, n, ho, rfl⟩ := insertOutbox_ok hcmd
        obtain ⟨t', ht'⟩ := insert_toRow s input localMessageId 1 env.now
        have hpair := ht'.symm.trans ht
        simp only [Option.some.injEq, Prod.mk.injEq] at hpair
        obtain ⟨rfl, rfl⟩ := hpair
        exact .created t' o n (by omega) ht ho

end Create

end PrivchatSdk
