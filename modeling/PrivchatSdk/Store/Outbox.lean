import Mathlib.Data.List.Sort
import PrivchatSdk.Store.Upsert

/-!
# The outbox and the sent marks

Commands enter the outbox together with the status of their message and leave
it together with the outcome of the send; each of these pairs is one
transaction.  For every operation an outcome type lists what it can do to the
store, and a lemma shows that it does one of these things.
-/

namespace PrivchatSdk

open StatementExec RelTable

section Enqueue

/-- `INSERT INTO outbox .. ON CONFLICT(command_id) DO UPDATE`. -/
def upsertOutbox
    (context : String) (commandId : CommandId) (commandType : String)
    (messageId channelId : Nat) (payload : List UInt8)
    (routeKey : Option String) (now : Int) : StoreM PUnit :=
  stmt context (fun s =>
    if s.outbox.rows.any (fun o => o.commandId == commandId) then
      .ok (.unit, { s with
        outbox := s.outbox.modify (fun o => o.commandId == commandId)
          (fun o => { o with
            payload := payload
            routeKey := routeKey
            status := "pending"
            nextAttemptAt := 0
            updatedAt := now })
          (fun _ => rfl) (fun _ => rfl) })
    else
      match s.outbox.insert
          (OutboxRow.pending commandId commandType messageId channelId payload
            routeKey now)
          (fun _ => rfl) with
      | some (t, _) => .ok (.unit, { s with outbox := t })
      | none => .error (.constraint .outbox))

/-- What an outbox upsert leaves in the outbox. -/
inductive OutboxUpserted
    (commandId : CommandId) (commandType : String) (messageId channelId : Nat)
    (payload : List UInt8) (routeKey : Option String) (now : Int)
    (o : Table OutboxRow) : Table OutboxRow → Prop
  | refreshed
      (hexists : o.rows.any (fun c => c.commandId == commandId) = true) :
      OutboxUpserted commandId commandType messageId channelId payload routeKey
        now o
        (o.modify (fun c => c.commandId == commandId)
          (fun c => { c with
            payload := payload
            routeKey := routeKey
            status := "pending"
            nextAttemptAt := 0
            updatedAt := now })
          (fun _ => rfl) (fun _ => rfl))
  | inserted (o' : Table OutboxRow) (n : Nat)
      (hnew : ∀ c ∈ o.rows, c.commandId ≠ commandId)
      (ho : o.insert
        (OutboxRow.pending commandId commandType messageId channelId payload
          routeKey now) (fun _ => rfl) = some (o', n)) :
      OutboxUpserted commandId commandType messageId channelId payload routeKey
        now o o'

theorem upsertOutbox_ok
    {context : String} {commandId : CommandId} {commandType : String}
    {messageId channelId : Nat} {payload : List UInt8}
    {routeKey : Option String} {now : Int} {env : Env} {s s' : Store}
    {u : PUnit}
    (h : upsertOutbox context commandId commandType messageId channelId payload
      routeKey now env s = (.ok u, s')) :
    ∃ o, OutboxUpserted commandId commandType messageId channelId payload
        routeKey now s.outbox o ∧
      s' = { s with outbox := o } := by
  obtain ⟨-, hb⟩ := stmt_ok.mp h
  split at hb
  · rename_i hexists
    cases hb
    exact ⟨_, .refreshed hexists, rfl⟩
  · rename_i hnew
    split at hb
    · rename_i t n ht
      cases hb
      exact ⟨t, .inserted t n (by simpa using hnew) ht, rfl⟩
    · cases hb

/-- `outbox_enqueue`: mark the message as sending and write its command. -/
def outboxEnqueue
    (messageId : Nat) (commandType : String) (channelId : Nat)
    (payload : List UInt8) (routeKey : Option String) : StoreM PUnit :=
  withTx "outbox enqueue begin tx" "outbox enqueue commit" do
    let now ← nowMs
    let found ← query "outbox enqueue read identity"
      (fun s => (s.message.byRowid messageId).map (fun r => r.localMessageId))
    let snowflake := found.getD 0
    if snowflake = 0 then
      Exec.fail (.missingLocalMessageId messageId)
    else do
      let _ ← modifyMessage "outbox enqueue mark sending"
        (fun r => r.id == messageId)
        (fun r => { r with status := 1, updatedAt := now })
        (fun _ => rfl) (fun _ => rfl)
      upsertOutbox "outbox enqueue insert" (.msg snowflake) commandType
        messageId channelId payload routeKey now

/-- Set the status of a message to sending. -/
def Store.markSending (s : Store) (messageId : Nat) (now : Int) :
    Table MessageRow :=
  s.message.modify (fun r => r.id == messageId)
    (fun r => { r with status := 1, updatedAt := now })
    (fun _ => rfl) (fun _ => rfl)

inductive EnqueueOutcome
    (messageId : Nat) (commandType : String) (channelId : Nat)
    (payload : List UInt8) (routeKey : Option String) (env : Env) (s : Store) :
    Except StoreError PUnit → Store → Prop
  | failed (e : StoreError) :
      EnqueueOutcome messageId commandType channelId payload routeKey env s
        (.error e) s
  | enqueued (row : MessageRow) (o : Table OutboxRow)
      (hrow : s.message.byRowid messageId = some row)
      (hpos : 0 < row.localMessageId)
      (ho : OutboxUpserted (.msg row.localMessageId) commandType messageId
        channelId payload routeKey env.now s.outbox o) :
      EnqueueOutcome messageId commandType channelId payload routeKey env s
        (.ok .unit)
        { s with message := s.markSending messageId env.now, outbox := o }

theorem outboxEnqueue_outcome
    {messageId : Nat} {commandType : String} {channelId : Nat}
    {payload : List UInt8} {routeKey : Option String}
    {env : Env} {s s' : Store} {res : Except StoreError PUnit}
    (h : outboxEnqueue messageId commandType channelId payload routeKey env s =
      (res, s')) :
    EnqueueOutcome messageId commandType channelId payload routeKey env s
      res s' := by
  cases res with
  | error e =>
      cases withTx_error h
      exact .failed e
  | ok u =>
      have hbody := withTx_ok h
      rw [nowMs_bind] at hbody
      obtain ⟨found, s₁, hq, hrest⟩ := Exec.bind_ok.mp hbody
      obtain ⟨-, rfl, rfl⟩ := query_ok.mp hq
      split at hrest
      · cases hrest
      · rename_i hpos
        obtain ⟨n, s₂, hm, hrest⟩ := Exec.bind_ok.mp hrest
        obtain ⟨-, -, rfl⟩ := modifyMessage_ok.mp hm
        obtain ⟨o, ho, rfl⟩ := upsertOutbox_ok hrest
        cases hrow : s.message.byRowid messageId with
        | none =>
            simp [hrow] at hpos
        | some row =>
            simp only [hrow, Option.map_some, Option.getD_some] at hpos ho
            exact .enqueued row o hrow (by omega) ho

end Enqueue

section Attachments

/-- Content and media state of a finished local attachment, now sending. -/
def MessageRow.finalizeSending
    (content : String) (thumbStatus now : Int) (r : MessageRow) : MessageRow :=
  { r with
    content := content
    thumbStatus := thumbStatus
    mediaDownloaded := true
    status := 1
    updatedAt := now }

/-- `finalize_attachment_and_enqueue`, in one transaction. -/
def finalizeAttachmentAndEnqueue
    (messageId : Nat) (content : String) (thumbStatus : Int)
    (routeKey : String) (payload : List UInt8) : StoreM (Nat × Int) :=
  withTx "finalize+enqueue begin tx" "finalize+enqueue commit" do
    let now ← nowMs
    let row ← queryRow "finalize+enqueue lookup message"
      (fun s => s.message.byRowid messageId)
    if row.localMessageId = 0 then
      Exec.fail (.missingLocalMessageId messageId)
    else do
      let _ ← modifyMessage "finalize+enqueue update message"
        (fun r => r.id == messageId)
        (MessageRow.finalizeSending content thumbStatus now)
        (fun _ => rfl) (fun _ => rfl)
      upsertOutbox "finalize+enqueue insert command" (.msg row.localMessageId)
        "attachment" messageId row.channelId payload (some routeKey) now
      pure (row.channelId, row.channelType)

inductive FinalizeOutcome
    (messageId : Nat) (content : String) (thumbStatus : Int)
    (routeKey : String) (payload : List UInt8) (env : Env) (s : Store) :
    Except StoreError (Nat × Int) → Store → Prop
  | failed (e : StoreError) :
      FinalizeOutcome messageId content thumbStatus routeKey payload env s
        (.error e) s
  | enqueued (row : MessageRow) (o : Table OutboxRow)
      (hrow : s.message.byRowid messageId = some row)
      (hpos : 0 < row.localMessageId)
      (ho : OutboxUpserted (.msg row.localMessageId) "attachment" messageId
        row.channelId payload (some routeKey) env.now s.outbox o) :
      FinalizeOutcome messageId content thumbStatus routeKey payload env s
        (.ok (row.channelId, row.channelType))
        { s with
          message := s.message.modify (fun r => r.id == messageId)
            (MessageRow.finalizeSending content thumbStatus env.now)
            (fun _ => rfl) (fun _ => rfl)
          outbox := o }

theorem finalizeAttachmentAndEnqueue_outcome
    {messageId : Nat} {content : String} {thumbStatus : Int}
    {routeKey : String} {payload : List UInt8}
    {env : Env} {s s' : Store} {res : Except StoreError (Nat × Int)}
    (h : finalizeAttachmentAndEnqueue messageId content thumbStatus routeKey
      payload env s = (res, s')) :
    FinalizeOutcome messageId content thumbStatus routeKey payload env s
      res s' := by
  cases res with
  | error e =>
      cases withTx_error h
      exact .failed e
  | ok v =>
      have hbody := withTx_ok h
      rw [nowMs_bind] at hbody
      obtain ⟨row, s₁, hq, hrest⟩ := Exec.bind_ok.mp hbody
      obtain ⟨-, hrow, rfl⟩ := queryRow_ok.mp hq
      split at hrest
      · cases hrest
      · rename_i hpos
        obtain ⟨n, s₂, hm, hrest⟩ := Exec.bind_ok.mp hrest
        obtain ⟨-, -, rfl⟩ := modifyMessage_ok.mp hm
        obtain ⟨u, s₃, hcmd, hrest⟩ := Exec.bind_ok.mp hrest
        cases hrest
        obtain ⟨o, ho, rfl⟩ := upsertOutbox_ok hcmd
        exact .enqueued row o hrow (by omega) ho

end Attachments

section Sent

/-- The columns that an acknowledged send writes. -/
def MessageRow.acknowledge
    (serverMessageId : Nat) (messageSeq now : Int) (r : MessageRow) :
    MessageRow :=
  { r with
    serverMessageId := some serverMessageId
    status := 2
    updatedAt := now
    pts := messageSeq
    orderSeq := messageSeq }

/-- The messages without the other holders of a server id. -/
def Store.dedupe (s : Store) (serverMessageId messageId : Nat) :
    Table MessageRow :=
  s.message.deleteWhere
    (fun r => r.serverMessageId == some serverMessageId && r.id != messageId)

/-- The outbox without the command of a message. -/
def Store.withoutCommand (s : Store) (messageId : Nat) : Table OutboxRow :=
  s.outbox.deleteWhere (fun o => o.messageId == some messageId)

theorem mem_withoutCommand
    {s : Store} {messageId : Nat} {o : OutboxRow}
    (h : o ∈ (s.withoutCommand messageId).rows) :
    o ∈ s.outbox.rows :=
  ((Table.mem_deleteWhere _ _ o).mp h).1

/-- `outbox_ack_sent`: store the acknowledgement and drop the command. -/
def outboxAckSent
    (messageId serverMessageId : Nat) (messageSeq : Int) : StoreM PUnit :=
  withTx "outbox ack begin tx" "outbox ack commit" do
    let now ← nowMs
    deleteMessage "outbox ack dedupe"
      (fun r => r.serverMessageId == some serverMessageId && r.id != messageId)
    let updated ← updateMessage "outbox ack update message" messageId
      (MessageRow.acknowledge serverMessageId messageSeq now) (fun _ => rfl)
    if updated = 0 then
      Exec.fail (.storage
        s!"outbox ack failed: message.id={messageId} not found" none)
    else
      exec "outbox ack delete row"
        (fun s => { s with outbox := s.withoutCommand messageId })

/-- `mark_message_sent`: the acknowledgement without an outbox command. -/
def markMessageSent
    (messageId serverMessageId : Nat) (messageSeq : Int) : StoreM PUnit :=
  withTx "mark message sent begin tx" "mark message sent commit" do
    let now ← nowMs
    let existing ← query "mark message sent find message"
      (fun s => s.message.byRowid messageId)
    if existing.isNone then
      Exec.fail (.storage
        s!"mark message sent failed: message.id={messageId} not found" none)
    else do
      deleteMessage "mark message sent dedupe"
        (fun r => r.serverMessageId == some serverMessageId && r.id != messageId)
      let updated ← updateMessage "mark message sent" messageId
        (MessageRow.acknowledge serverMessageId messageSeq now) (fun _ => rfl)
      if updated = 0 then
        Exec.fail (.storage
          s!"mark message sent failed: message.id={messageId} not found" none)
      else
        pure .unit

/-- What an acknowledgement leaves; `o` is the outbox it leaves. -/
inductive AckOutcome
    (messageId serverMessageId : Nat) (messageSeq : Int)
    (o : Table OutboxRow) (env : Env) (s : Store) :
    Except StoreError PUnit → Store → Prop
  | failed (e : StoreError) (he : e.onServerIdIndex = false) :
      AckOutcome messageId serverMessageId messageSeq o env s (.error e) s
  | acked (row : MessageRow) (t : Table MessageRow)
      (hrow : s.message.byRowid messageId = some row)
      (ht : (s.dedupe serverMessageId messageId).update
        (fun r => Record.rowid r == messageId)
        (MessageRow.acknowledge serverMessageId messageSeq env.now)
        (fun _ => rfl) = some t) :
      AckOutcome messageId serverMessageId messageSeq o env s (.ok .unit)
        { s with message := t, outbox := o }

/-- After the duplicates are gone the acknowledgement fits the unique index. -/
theorem exists_update_acknowledge
    (s : Store) (messageId serverMessageId : Nat) (messageSeq now : Int) :
    ∃ t, (s.dedupe serverMessageId messageId).update
      (fun r => Record.rowid r == messageId)
      (MessageRow.acknowledge serverMessageId messageSeq now)
      (fun _ => rfl) = some t := by
  cases hu : (s.dedupe serverMessageId messageId).update
      (fun r => Record.rowid r == messageId)
      (MessageRow.acknowledge serverMessageId messageSeq now)
      (fun _ => rfl) with
  | some t =>
      exact ⟨t, rfl⟩
  | none =>
      exfalso
      apply (Table.update_eq_none_iff _ _ _ _).mp hu
      refine Table.keysUnique_updatedRow _ messageId _ ?_
      intro a _ _ b hb hbne k hka hkb
      simp only [mem_keys_message, MessageRow.acknowledge,
        Option.some.injEq] at hka hkb
      rw [← hka.1] at hkb
      have hdel := ((Table.mem_deleteWhere _ _ b).mp hb).2
      have hne : b.id ≠ messageId := hbne
      simp [hkb.1, hne] at hdel

/-- The dedupe keeps the acknowledged message itself. -/
theorem byRowid_dedupe_self
    (s : Store) (serverMessageId messageId : Nat) :
    (s.dedupe serverMessageId messageId).byRowid messageId =
      s.message.byRowid messageId := by
  unfold Store.dedupe
  rw [Table.byRowid_deleteWhere]
  cases h : s.message.byRowid messageId with
  | none =>
      rfl
  | some r =>
      have hid := ((Table.byRowid_eq_some_iff _ _ _).mp h).2
      have hid' : r.id = messageId := hid
      simp [hid']

theorem countP_rowid_pos
    {t : Table MessageRow} {messageId n : Nat}
    (hcount : t.rows.countP (fun r => Record.rowid r == messageId) = n)
    (hpos : ¬ n = 0) :
    ∃ row, t.byRowid messageId = some row := by
  have hp : 0 < t.rows.countP (fun r => Record.rowid r == messageId) := by
    omega
  obtain ⟨r, hr, hid⟩ := List.countP_pos_iff.mp hp
  exact ⟨r, (t.byRowid_eq_some_iff _ _).mpr ⟨hr, by simpa using hid⟩⟩

theorem fails_acknowledge
    {context : String} {messageId serverMessageId : Nat}
    {messageSeq now : Int} {env : Env} {s s' : Store} {e : StoreError}
    (h : updateMessage context messageId
      (MessageRow.acknowledge serverMessageId messageSeq now) (fun _ => rfl)
      env { s with message := s.dedupe serverMessageId messageId } =
        (.error e, s')) :
    e.onServerIdIndex = false := by
  obtain ⟨t, ht⟩ :=
    exists_update_acknowledge s messageId serverMessageId messageSeq now
  by_contra hcon
  have hnone := (updateMessage_error h).2 (by simpa using hcon)
  rw [ht] at hnone
  cases hnone

theorem outboxAckSent_outcome
    {messageId serverMessageId : Nat} {messageSeq : Int}
    {env : Env} {s s' : Store} {res : Except StoreError PUnit}
    (h : outboxAckSent messageId serverMessageId messageSeq env s = (res, s')) :
    AckOutcome messageId serverMessageId messageSeq
      (s.withoutCommand messageId) env s res s' := by
  cases res with
  | error e =>
      cases withTx_error h
      refine .failed e ?_
      unfold outboxAckSent withTx at h
      rcases Exec.transaction_failed h with
        ⟨s₁, hb⟩ | ⟨u, s₁, s₂, hb, hbody⟩ | ⟨s₁, s₂, hc⟩
      · exact (exec_error hb).2
      · obtain ⟨-, rfl⟩ := exec_ok.mp hb
        rw [nowMs_bind] at hbody
        rcases Exec.bind_error.mp hbody with hd | ⟨u', s₃, hd, hrest⟩
        · exact (exec_error hd).2
        · obtain ⟨-, rfl⟩ := exec_ok.mp hd
          rcases Exec.bind_error.mp hrest with hu | ⟨n, s₄, hu, hrest⟩
          · exact fails_acknowledge hu
          · split at hrest
            · cases hrest
              rfl
            · exact (exec_error hrest).2
      · exact (exec_error hc).2
  | ok u =>
      have hbody := withTx_ok h
      rw [nowMs_bind] at hbody
      obtain ⟨u₁, s₁, hd, hrest⟩ := Exec.bind_ok.mp hbody
      obtain ⟨-, rfl⟩ := exec_ok.mp hd
      obtain ⟨n, s₂, hu, hrest⟩ := Exec.bind_ok.mp hrest
      obtain ⟨t, ht, hcount, rfl⟩ := updateMessage_ok hu
      split at hrest
      · cases hrest
      · rename_i hpos
        obtain ⟨-, rfl⟩ := exec_ok.mp hrest
        obtain ⟨row, hrow⟩ := countP_rowid_pos hcount hpos
        have hrow' := byRowid_dedupe_self s serverMessageId messageId
        rw [← Store.dedupe, hrow'] at hrow
        exact .acked row t hrow ht

theorem markMessageSent_outcome
    {messageId serverMessageId : Nat} {messageSeq : Int}
    {env : Env} {s s' : Store} {res : Except StoreError PUnit}
    (h : markMessageSent messageId serverMessageId messageSeq env s =
      (res, s')) :
    AckOutcome messageId serverMessageId messageSeq s.outbox env s res s' := by
  cases res with
  | error e =>
      cases withTx_error h
      refine .failed e ?_
      unfold markMessageSent withTx at h
      rcases Exec.transaction_failed h with
        ⟨s₁, hb⟩ | ⟨u, s₁, s₂, hb, hbody⟩ | ⟨s₁, s₂, hc⟩
      · exact (exec_error hb).2
      · obtain ⟨-, rfl⟩ := exec_ok.mp hb
        rw [nowMs_bind] at hbody
        rcases Exec.bind_error.mp hbody with hq | ⟨x, s₃, hq, hrest⟩
        · exact (query_error hq).2
        · obtain ⟨-, rfl, rfl⟩ := query_ok.mp hq
          split at hrest
          · cases hrest
            rfl
          · rcases Exec.bind_error.mp hrest with hd | ⟨u', s₄, hd, hrest⟩
            · exact (exec_error hd).2
            · obtain ⟨-, rfl⟩ := exec_ok.mp hd
              rcases Exec.bind_error.mp hrest with hu | ⟨n, s₅, hu, hrest⟩
              · exact fails_acknowledge hu
              · split at hrest
                · cases hrest
                  rfl
                · cases hrest
      · exact (exec_error hc).2
  | ok u =>
      have hbody := withTx_ok h
      rw [nowMs_bind] at hbody
      obtain ⟨x, s₁, hq, hrest⟩ := Exec.bind_ok.mp hbody
      obtain ⟨-, rfl, rfl⟩ := query_ok.mp hq
      split at hrest
      · cases hrest
      · rename_i hsome
        obtain ⟨u₁, s₂, hd, hrest⟩ := Exec.bind_ok.mp hrest
        obtain ⟨-, rfl⟩ := exec_ok.mp hd
        obtain ⟨n, s₃, hu, hrest⟩ := Exec.bind_ok.mp hrest
        obtain ⟨t, ht, hcount, rfl⟩ := updateMessage_ok hu
        split at hrest
        · cases hrest
        · cases hrest
          obtain ⟨row, hrow⟩ := Option.ne_none_iff_exists'.mp
            (by simpa using hsome)
          exact .acked row t hrow ht

/-- The columns that a reconciled send writes. -/
def MessageRow.reconcile (serverMessageId : Nat) (now : Int) (r : MessageRow) :
    MessageRow :=
  { r with
    serverMessageId := some serverMessageId
    status := 2
    updatedAt := now }

/-- `outbox_reconcile_sent`: the server id reached the device another way. -/
def outboxReconcileSent (messageId serverMessageId : Nat) : StoreM PUnit :=
  withTx "outbox reconcile begin tx" "outbox reconcile commit" do
    let now ← nowMs
    let _ ← updateMessage "outbox reconcile mark sent" messageId
      (MessageRow.reconcile serverMessageId now) (fun _ => rfl)
    exec "outbox reconcile delete row"
      (fun s => { s with outbox := s.withoutCommand messageId })

inductive ReconcileOutcome
    (messageId serverMessageId : Nat) (env : Env) (s : Store) :
    Except StoreError PUnit → Store → Prop
  | failed (e : StoreError)
      (he : e.onServerIdIndex = true →
        s.message.update (fun r => Record.rowid r == messageId)
          (MessageRow.reconcile serverMessageId env.now) (fun _ => rfl) = none) :
      ReconcileOutcome messageId serverMessageId env s (.error e) s
  | reconciled (t : Table MessageRow)
      (ht : s.message.update (fun r => Record.rowid r == messageId)
        (MessageRow.reconcile serverMessageId env.now) (fun _ => rfl) = some t) :
      ReconcileOutcome messageId serverMessageId env s (.ok .unit)
        { s with message := t, outbox := s.withoutCommand messageId }

theorem outboxReconcileSent_outcome
    {messageId serverMessageId : Nat}
    {env : Env} {s s' : Store} {res : Except StoreError PUnit}
    (h : outboxReconcileSent messageId serverMessageId env s = (res, s')) :
    ReconcileOutcome messageId serverMessageId env s res s' := by
  cases res with
  | error e =>
      cases withTx_error h
      refine .failed e ?_
      intro hcon
      unfold outboxReconcileSent withTx at h
      rcases Exec.transaction_failed h with
        ⟨s₁, hb⟩ | ⟨u, s₁, s₂, hb, hbody⟩ | ⟨s₁, s₂, hc⟩
      · rw [(exec_error hb).2] at hcon
        cases hcon
      · obtain ⟨-, rfl⟩ := exec_ok.mp hb
        rw [nowMs_bind] at hbody
        rcases Exec.bind_error.mp hbody with hu | ⟨n, s₃, -, hd⟩
        · exact (updateMessage_error hu).2 hcon
        · rw [(exec_error hd).2] at hcon
          cases hcon
      · rw [(exec_error hc).2] at hcon
        cases hcon
  | ok u =>
      have hbody := withTx_ok h
      rw [nowMs_bind] at hbody
      obtain ⟨n, s₁, hu, hrest⟩ := Exec.bind_ok.mp hbody
      obtain ⟨t, ht, -, rfl⟩ := updateMessage_ok hu
      obtain ⟨-, rfl⟩ := exec_ok.mp hrest
      exact .reconciled t ht

end Sent

section Failures

/-- `outbox_reject`: the server refused the message. -/
def outboxReject (messageId : Nat) (status : Int) : StoreM PUnit :=
  withTx "outbox reject begin tx" "outbox reject commit" do
    let now ← nowMs
    let _ ← modifyMessage "outbox reject mark message"
      (fun r => r.id == messageId)
      (fun r => { r with status := status, updatedAt := now })
      (MessageRow.rowid_status status now) (MessageRow.keys_status status now)
    exec "outbox reject delete row"
      (fun s => { s with outbox := s.withoutCommand messageId })

/-- `outbox_bump_retry`: note the failed attempt and when to try again. -/
def outboxBumpRetry
    (messageId : Nat) (nextAttemptAt : Int) (lastError : String) :
    StoreM PUnit := do
  let now ← nowMs
  exec "outbox bump retry" (fun s =>
    { s with
      outbox := s.outbox.modify (fun o => o.messageId == some messageId)
        (fun o => { o with
          retryCount := o.retryCount + 1
          nextAttemptAt := nextAttemptAt
          lastError := some lastError
          updatedAt := now })
        (fun _ => rfl) (fun _ => rfl) })

/-- `outbox_drop`: forget the command of a message. -/
def outboxDrop (messageId : Nat) : StoreM PUnit :=
  exec "outbox drop"
    (fun s => { s with outbox := s.withoutCommand messageId })

theorem outboxReject_cases
    {messageId : Nat} {status : Int} {env : Env} {s s' : Store}
    {res : Except StoreError PUnit}
    (h : outboxReject messageId status env s = (res, s')) :
    (∃ e, res = .error e ∧ s' = s) ∨
      (res = .ok .unit ∧
        s' = { s with
          message := s.withStatus messageId status env.now
          outbox := s.withoutCommand messageId }) := by
  cases res with
  | error e =>
      exact Or.inl ⟨e, rfl, withTx_error h⟩
  | ok u =>
      have hbody := withTx_ok h
      rw [nowMs_bind] at hbody
      obtain ⟨n, s₁, hm, hrest⟩ := Exec.bind_ok.mp hbody
      obtain ⟨-, -, rfl⟩ := modifyMessage_ok.mp hm
      obtain ⟨-, rfl⟩ := exec_ok.mp hrest
      exact Or.inr ⟨rfl, rfl⟩

theorem outboxDrop_cases
    {messageId : Nat} {env : Env} {s s' : Store} {res : Except StoreError PUnit}
    (h : outboxDrop messageId env s = (res, s')) :
    (∃ e, res = .error e ∧ s' = s) ∨
      (res = .ok .unit ∧ s' = { s with outbox := s.withoutCommand messageId }) := by
  cases res with
  | error e =>
      exact Or.inl ⟨e, rfl, (exec_error h).1⟩
  | ok u =>
      obtain ⟨-, rfl⟩ := exec_ok.mp h
      exact Or.inr ⟨rfl, rfl⟩

/-- The outbox after a failed attempt was noted. -/
def Store.retried
    (s : Store) (messageId : Nat) (nextAttemptAt : Int) (lastError : String)
    (now : Int) : Table OutboxRow :=
  s.outbox.modify (fun o => o.messageId == some messageId)
    (fun o => { o with
      retryCount := o.retryCount + 1
      nextAttemptAt := nextAttemptAt
      lastError := some lastError
      updatedAt := now })
    (fun _ => rfl) (fun _ => rfl)

theorem outboxBumpRetry_cases
    {messageId : Nat} {nextAttemptAt : Int} {lastError : String}
    {env : Env} {s s' : Store} {res : Except StoreError PUnit}
    (h : outboxBumpRetry messageId nextAttemptAt lastError env s = (res, s')) :
    (∃ e, res = .error e ∧ s' = s) ∨
      (res = .ok .unit ∧
        s' = { s with
          outbox := s.retried messageId nextAttemptAt lastError env.now }) := by
  unfold outboxBumpRetry at h
  rw [nowMs_bind] at h
  cases res with
  | error e =>
      exact Or.inl ⟨e, rfl, (exec_error h).1⟩
  | ok u =>
      obtain ⟨-, rfl⟩ := exec_ok.mp h
      exact Or.inr ⟨rfl, rfl⟩

end Failures

section Peek

/-- Row order of `ORDER BY created_at ASC, id ASC`. -/
def OutboxRow.Before (a b : OutboxRow) : Prop :=
  a.createdAt < b.createdAt ∨ (a.createdAt = b.createdAt ∧ a.id ≤ b.id)

instance : DecidableRel OutboxRow.Before :=
  fun _ _ => inferInstanceAs (Decidable (_ ∨ _))

/-- A pending command of the type whose next attempt is due. -/
def OutboxRow.due (commandType : String) (nowMs : Int) (o : OutboxRow) : Bool :=
  o.commandType == commandType && o.status == "pending" &&
    decide (o.nextAttemptAt ≤ nowMs) && o.messageId.isSome

/-- `outbox_peek`: the due commands of one type, oldest first. -/
def outboxPeek (commandType : String) (limit : Nat) (nowMs : Int) :
    StoreM (List OutboxRow) :=
  query "outbox peek query" (fun s =>
    ((s.outbox.rows.filter (OutboxRow.due commandType nowMs)).insertionSort
      OutboxRow.Before).take limit)

theorem outboxPeek_mem
    {commandType : String} {limit : Nat} {nowMs : Int} {env : Env}
    {s s' : Store} {commands : List OutboxRow}
    (h : outboxPeek commandType limit nowMs env s = (.ok commands, s')) :
    ∀ o ∈ commands, o ∈ s.outbox.rows := by
  intro o ho
  obtain ⟨-, rfl, -⟩ := query_ok.mp h
  have hsorted := List.mem_of_mem_take ho
  rw [List.mem_insertionSort] at hsorted
  exact (List.mem_filter.mp hsorted).1

end Peek

end PrivchatSdk
