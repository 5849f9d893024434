import PrivchatSdk.AttemptIdentity

/-!
# Message status against the outbox

A message that is shown as sending should have a command in the outbox, and a
failed one should have none.  Most operations write both sides in one
transaction.  `Client.KeepsOutbox` says when an event keeps the correspondence,
`outbox_matches_status` lifts it to runs, and `dropped_command_leaves_sending`
shows the explicit acknowledgement of queued messages outside of it.

That a locally deleted message is not sent again needs no condition: row ids are
not reused, and no attempt is built without the row (`attempts_after_delete`).
-/

namespace PrivchatSdk

open StatementExec RelTable

section Standing

/-- A row with a positive server id. -/
def MessageRow.hasServerId (r : MessageRow) : Bool :=
  r.serverMessageId.any (fun sid => decide (0 < sid))

/-- Shown as sending, and not known to the server. -/
def MessageRow.awaitsServer (r : MessageRow) : Bool :=
  r.status == 1 && !r.hasServerId

/-- The columns that the outbox must agree with. -/
def MessageRow.standing (r : MessageRow) : Int × Bool :=
  (r.status, r.hasServerId)

/-- The standing of every row but the one with the id `m`. -/
def MessageRow.standingElsewhere (m : Nat) (r : MessageRow) :
    Option (Int × Bool) :=
  if r.id = m then none else some r.standing

theorem awaitsServer_of_standing
    {r r' : MessageRow} (h : r'.standing = r.standing) :
    r'.awaitsServer = r.awaitsServer := by
  obtain ⟨hstatus, hsid⟩ := Prod.mk.injEq .. ▸ h
  simp [MessageRow.awaitsServer, hstatus, hsid]

theorem status_of_standing
    {r r' : MessageRow} (h : r'.standing = r.standing) :
    r'.status = r.status :=
  congrArg Prod.fst h

/-- Another row than `m` that is still there stands as it did. -/
theorem RowsKept.standing
    {t t' : Table MessageRow} {m n : Nat}
    (h : RowsKept (MessageRow.standingElsewhere m) t t')
    (hn : n < t.nextRowid) (hne : n ≠ m) {row' : MessageRow}
    (hrow' : t'.byRowid n = some row') :
    ∃ row, t.byRowid n = some row ∧ row'.standing = row.standing := by
  obtain ⟨row, hrow, heq⟩ := h.rows n hn row' hrow'
  have hid : row.id = n := ((t.byRowid_eq_some_iff _ _).mp hrow).2
  have hid' : row'.id = n := ((t'.byRowid_eq_some_iff _ _).mp hrow').2
  simp only [MessageRow.standingElsewhere, hid, hid', hne, if_false,
    Option.some.injEq] at heq
  exact ⟨row, hrow, heq⟩

/-- Writing the row `m` alone keeps the standings elsewhere. -/
theorem standingElsewhere_modify
    (t : Table MessageRow) (m : Nat) (f : MessageRow → MessageRow) (hid hkeys) :
    RowsKept (MessageRow.standingElsewhere m) t
      (t.modify (fun r => r.id == m) f hid hkeys) := by
  refine rowsKept_of_updatedRows hid (t.rows_modify _ f hid hkeys) rfl ?_
  intro r _ hp
  have hr : r.id = m := by simpa using hp
  have hf : (f r).id = m := (hid r).trans hr
  simp [MessageRow.standingElsewhere, hr, hf]

theorem standingElsewhere_withStatus
    (s : Store) (m : Nat) (status now : Int) :
    RowsKept (MessageRow.standingElsewhere m) s.message
      (s.withStatus m status now) :=
  standingElsewhere_modify _ _ _ _ _

theorem standingElsewhere_update
    {t t' : Table MessageRow} {m : Nat} {f : MessageRow → MessageRow} {hid}
    (h : t.update (fun r => Record.rowid r == m) f hid = some t') :
    RowsKept (MessageRow.standingElsewhere m) t t' := by
  refine rowsKept_of_update h ?_
  intro r _ hp
  have hr : r.id = m := by simpa using hp
  have hf : (f r).id = m := (hid r).trans hr
  simp [MessageRow.standingElsewhere, hr, hf]

end Standing

section Commands

/-- The outbox holds a command of the message. -/
def hasCommand (o : Table OutboxRow) (m : Nat) : Bool :=
  o.rows.any (fun c => c.messageId == some m)

theorem hasCommand_iff (o : Table OutboxRow) (m : Nat) :
    hasCommand o m = true ↔ ∃ c ∈ o.rows, c.messageId = some m := by
  simp [hasCommand]

theorem hasCommand_withoutCommand_self (s : Store) (m : Nat) :
    hasCommand (s.withoutCommand m) m = false := by
  rw [Bool.eq_false_iff, ne_eq, hasCommand_iff]
  rintro ⟨c, hc, hm⟩
  have hdel := ((Table.mem_deleteWhere _ _ c).mp hc).2
  simp [hm] at hdel

theorem hasCommand_withoutCommand_of_ne
    (s : Store) {m n : Nat} (hne : n ≠ m) :
    hasCommand (s.withoutCommand m) n = hasCommand s.outbox n := by
  rw [Bool.eq_iff_iff, hasCommand_iff, hasCommand_iff]
  constructor
  · rintro ⟨c, hc, hn⟩
    exact ⟨c, mem_withoutCommand hc, hn⟩
  · rintro ⟨c, hc, hn⟩
    refine ⟨c, (Table.mem_deleteWhere _ _ c).mpr ⟨hc, ?_⟩, hn⟩
    simp [hn, hne]

/-- Writing other columns of commands keeps which messages have one. -/
theorem hasCommand_modify
    (o : Table OutboxRow) (p : OutboxRow → Bool) (f : OutboxRow → OutboxRow)
    (hid hkeys) (hf : ∀ c, (f c).messageId = c.messageId) (n : Nat) :
    hasCommand (o.modify p f hid hkeys) n = hasCommand o n := by
  rw [Bool.eq_iff_iff, hasCommand_iff, hasCommand_iff]
  constructor
  · rintro ⟨c, hc, hn⟩
    rw [Table.mem_modify] at hc
    obtain ⟨c₀, hc₀, rfl⟩ := hc
    refine ⟨c₀, hc₀, ?_⟩
    split at hn
    · rw [hf] at hn
      exact hn
    · exact hn
  · rintro ⟨c, hc, hn⟩
    refine ⟨if p c then f c else c, ?_, ?_⟩
    · rw [Table.mem_modify]
      exact ⟨c, hc, rfl⟩
    · split
      · rw [hf]
        exact hn
      · exact hn

/-- An inserted command is the one of its message. -/
theorem hasCommand_insert
    {o o' : Table OutboxRow} {commandId : CommandId} {commandType : String}
    {m channelId : Nat} {payload : List UInt8} {routeKey : Option String}
    {now : Int} {k : Nat}
    (h : o.insert (OutboxRow.pending commandId commandType m channelId payload
      routeKey now) (fun _ => rfl) = some (o', k)) (n : Nat) :
    hasCommand o' n = (n == m || hasCommand o n) := by
  have hrows := (Table.rows_of_insert h).2.1
  unfold hasCommand
  rw [hrows, List.any_append, Bool.or_comm]
  simp [OutboxRow.pending, beq_eq_decide, eq_comm]

/-- Every command is pending. -/
def AllPending (o : Table OutboxRow) : Prop :=
  ∀ c ∈ o.rows, c.status = "pending"

theorem AllPending.withoutCommand
    {s : Store} (h : AllPending s.outbox) (m : Nat) :
    AllPending (s.withoutCommand m) :=
  fun c hc => h c (mem_withoutCommand hc)

theorem AllPending.modify
    {o : Table OutboxRow} (h : AllPending o)
    (p : OutboxRow → Bool) (f : OutboxRow → OutboxRow) (hid hkeys)
    (hf : ∀ c, c.status = "pending" → (f c).status = "pending") :
    AllPending (o.modify p f hid hkeys) := by
  intro c hc
  rw [Table.mem_modify] at hc
  obtain ⟨c₀, hc₀, rfl⟩ := hc
  split
  · exact hf c₀ (h c₀ hc₀)
  · exact h c₀ hc₀

theorem AllPending.insert
    {o o' : Table OutboxRow} (h : AllPending o) {commandId : CommandId}
    {commandType : String} {m channelId : Nat} {payload : List UInt8}
    {routeKey : Option String} {now : Int} {k : Nat}
    (hins : o.insert (OutboxRow.pending commandId commandType m channelId
      payload routeKey now) (fun _ => rfl) = some (o', k)) :
    AllPending o' := by
  intro c hc
  rw [(Table.rows_of_insert hins).2.1, List.mem_append,
    List.mem_singleton] at hc
  rcases hc with hc | rfl
  · exact h c hc
  · rfl

/-- A message has at most one command. -/
theorem command_unique
    {o : Table OutboxRow} {m : Nat} {c c' : OutboxRow}
    (hc : c ∈ o.rows) (hc' : c' ∈ o.rows)
    (hm : c.messageId = some m) (hm' : c'.messageId = some m) :
    c = c' := by
  refine o.key_inj (k := .inr m) hc hc' ?_ ?_
  · simp [hm]
  · simp [hm']

end Commands

section Invariant

/--
Every queued message that waits for the server has a command, and no failed
message has one.
-/
structure OutboxInv (s : Store) (queued : List Nat) : Prop where
  pending : AllPending s.outbox
  commandIds : ∀ m, hasCommand s.outbox m = true → m < s.message.nextRowid
  queuedIds : ∀ m ∈ queued, m < s.message.nextRowid
  sending : ∀ m ∈ queued, ∀ row, s.message.byRowid m = some row →
    row.awaitsServer = true → hasCommand s.outbox m = true
  failed : ∀ m, hasCommand s.outbox m = true →
    ∀ row, s.message.byRowid m = some row → row.status ≠ 3

/-- An operation that writes the status of no message and no command. -/
theorem OutboxInv.of_kept
    {s s' : Store} {queued : List Nat} (h : OutboxInv s queued)
    (hrows : RowsKept MessageRow.standing s.message s'.message)
    (hpending : AllPending s'.outbox)
    (hcommands : ∀ m, hasCommand s'.outbox m = hasCommand s.outbox m) :
    OutboxInv s' queued where
  pending := hpending
  commandIds m hm := by
    rw [hcommands] at hm
    exact Nat.lt_of_lt_of_le (h.commandIds m hm) hrows.nextRowid
  queuedIds m hm :=
    Nat.lt_of_lt_of_le (h.queuedIds m hm) hrows.nextRowid
  sending m hm row' hrow' hawaits := by
    obtain ⟨row, hrow, heq⟩ := hrows.rows m (h.queuedIds m hm) row' hrow'
    rw [hcommands]
    rw [awaitsServer_of_standing heq] at hawaits
    exact h.sending m hm row hrow hawaits
  failed m hm row' hrow' := by
    rw [hcommands] at hm
    obtain ⟨row, hrow, heq⟩ := hrows.rows m (h.commandIds m hm) row' hrow'
    rw [status_of_standing heq]
    exact h.failed m hm row hrow

/-- An operation that writes the status and the command of the message `m`. -/
theorem OutboxInv.of_written
    {s s' : Store} {queued queued' : List Nat} (h : OutboxInv s queued)
    (m : Nat)
    (hrows : RowsKept (MessageRow.standingElsewhere m) s.message s'.message)
    (hpending : AllPending s'.outbox)
    (hcommands : ∀ n, n ≠ m →
      hasCommand s'.outbox n = hasCommand s.outbox n)
    (hqueued : ∀ n ∈ queued', n ∈ queued ∨ n = m)
    (hid : m ∈ queued' ∨ hasCommand s'.outbox m = true →
      m < s'.message.nextRowid)
    (hrow : ∀ row, s'.message.byRowid m = some row →
      (m ∈ queued' → row.awaitsServer = true →
        hasCommand s'.outbox m = true) ∧
      (hasCommand s'.outbox m = true → row.status ≠ 3)) :
    OutboxInv s' queued' where
  pending := hpending
  commandIds n hn := by
    by_cases heq : n = m
    · rw [heq] at hn ⊢
      exact hid (Or.inr hn)
    · rw [hcommands n heq] at hn
      exact Nat.lt_of_lt_of_le (h.commandIds n hn) hrows.nextRowid
  queuedIds n hn := by
    by_cases heq : n = m
    · rw [heq] at hn ⊢
      exact hid (Or.inl hn)
    · have hold := (hqueued n hn).resolve_right heq
      exact Nat.lt_of_lt_of_le (h.queuedIds n hold) hrows.nextRowid
  sending n hn row' hrow' hawaits := by
    by_cases heq : n = m
    · rw [heq] at hn hrow' ⊢
      exact (hrow row' hrow').1 hn hawaits
    · have hold := (hqueued n hn).resolve_right heq
      obtain ⟨row, hfound, hsame⟩ :=
        hrows.standing (h.queuedIds n hold) heq hrow'
      rw [hcommands n heq]
      rw [awaitsServer_of_standing hsame] at hawaits
      exact h.sending n hold row hfound hawaits
  failed n hn row' hrow' := by
    by_cases heq : n = m
    · rw [heq] at hn hrow'
      exact (hrow row' hrow').2 hn
    · rw [hcommands n heq] at hn
      obtain ⟨row, hfound, hsame⟩ :=
        hrows.standing (h.commandIds n hn) heq hrow'
      rw [status_of_standing hsame]
      exact h.failed n hn row hfound

end Invariant

section Operations

/-- Note a message that an operation queued. -/
def noteQueued (queued : List Nat) : Except StoreError OpEffect → List Nat
  | .ok (.queued messageId) => messageId :: queued
  | _ => queued

/-- The upsert marks no message that has a command as failed. -/
def KeepsUnfailed
    (currentUid : Option Nat) (s : Store) (input : UpsertRemoteMessageInput) :
    Prop :=
  ∀ base row, 0 < input.serverMessageId →
    UpsertTarget currentUid input s base row →
      input.status = 3 → hasCommand s.outbox row.id = false

/--
Enqueueing the message refreshes no command of another message: two rows with
one local id share the command id.
-/
def RefreshesOwn (s : Store) (messageId : Nat) : Prop :=
  ∀ row, s.message.byRowid messageId = some row → row.hasServerId = false →
    ∀ c ∈ s.outbox.rows, c.commandId = .msg row.localMessageId →
      hasCommand s.outbox messageId = true

/-- The operation keeps the statuses and the outbox in agreement. -/
def StoreOp.KeepsOutbox (queued : List Nat) (env : Env) (s : Store) :
    StoreOp → Prop
  | .upsertRemoteMessage currentUid input => KeepsUnfailed currentUid s input
  | .batchUpsertRemoteMessages currentUid inputs =>
      EventRun.Guarded (Store.afterUpsert currentUid env)
        (KeepsUnfailed currentUid) s inputs
  | .outboxEnqueue messageId .. => RefreshesOwn s messageId
  | .finalizeAttachmentAndEnqueue messageId .. => RefreshesOwn s messageId
  | .outboxDrop messageId =>
      messageId ∈ queued → ∀ row, s.message.byRowid messageId = some row →
        row.awaitsServer = false
  | .updateMessageStatus messageId status =>
      ∀ row, s.message.byRowid messageId = some row →
        (status = 3 → hasCommand s.outbox messageId = false) ∧
        (status = 1 → messageId ∈ queued → row.hasServerId = false →
          hasCommand s.outbox messageId = true)
  | _ => True

variable {s : Store} {queued : List Nat} {env : Env}

theorem OutboxInv.after
    {α : Type} {x : StoreM α}
    (h : ∀ res s', x env s = (res, s') → OutboxInv s' queued) :
    OutboxInv (x.after env s) queued :=
  h _ _ rfl

theorem OutboxInv.createLocalMessage
    (h : OutboxInv s queued) (input : NewMessage) (localMessageId : Nat) :
    OutboxInv ((PrivchatSdk.createLocalMessage input localMessageId).after env s)
      queued := by
  refine .after fun res s' hrun => ?_
  cases res with
  | ok n =>
      obtain ⟨t, ht, rfl⟩ := insertMessage_ok hrun
      exact h.of_kept (rowsKept_of_insert ht) h.pending (fun _ => rfl)
  | error e =>
      rw [(insertMessage_error hrun).1]
      exact h

theorem OutboxInv.createLocalMessageQueued
    (h : OutboxInv s queued) {input : NewMessage} {localMessageId : Nat}
    {commandType : String} {payload : List UInt8} {routeKey : Option String}
    {res : Except StoreError Nat} {s' : Store}
    (hout : CreateQueuedOutcome input localMessageId commandType payload
      routeKey env s res s') :
    OutboxInv s' (noteQueued queued (res.map .queued)) := by
  cases hout with
  | failed e he =>
      exact h
  | created t o n hpos ht ho =>
      have hcommand := hasCommand_insert ho
      refine h.of_written s.message.nextRowid (rowsKept_of_insert ht)
        (h.pending.insert ho) ?_ ?_ ?_ ?_
      · intro m hne
        simp [hcommand, hne]
      · intro m hm
        exact (List.mem_cons.mp hm).symm
      · intro _
        show s.message.nextRowid < t.nextRowid
        rw [(Table.rows_of_insert ht).2.2]
        exact Nat.lt_succ_self _
      · intro row hrow
        rw [Table.byRowid_of_append (fun _ => rfl) (Table.rows_of_insert ht).2.1,
          if_pos rfl] at hrow
        cases hrow
        refine ⟨fun _ _ => by simp [hcommand], fun _ => ?_⟩
        show (1 : Int) ≠ 3
        decide

/-- What an enqueued message and its command look like. -/
theorem OutboxInv.enqueued
    (h : OutboxInv s queued) {commandType : String} {messageId channelId : Nat}
    {payload : List UInt8} {routeKey : Option String} {now : Int}
    {o : Table OutboxRow} {row : MessageRow} {f : MessageRow → MessageRow}
    {hid hkeys}
    (hf : ∀ r, (f r).standing = (1, r.hasServerId))
    (hrow : s.message.byRowid messageId = some row)
    (hown : RefreshesOwn s messageId)
    (ho : OutboxUpserted (.msg row.localMessageId) commandType messageId
      channelId payload routeKey now s.outbox o) :
    OutboxInv
      { s with
        message := s.message.modify (fun r => r.id == messageId) f hid hkeys
        outbox := o }
      (messageId :: queued) := by
  have hlt := s.message.lt_of_byRowid hrow
  have hrid : row.id = messageId :=
    ((s.message.byRowid_eq_some_iff _ _).mp hrow).2
  have hcommands : (∀ n, n ≠ messageId →
        hasCommand o n = hasCommand s.outbox n) ∧
      AllPending o ∧
      (row.hasServerId = false → hasCommand o messageId = true) := by
    cases ho with
    | refreshed hexists =>
        have hsame := hasCommand_modify s.outbox
          (fun c => c.commandId == .msg row.localMessageId)
          (fun c => { c with
            payload := payload
            routeKey := routeKey
            status := "pending"
            nextAttemptAt := 0
            updatedAt := now })
          (fun _ => rfl) (fun _ => rfl) (fun _ => rfl)
        refine ⟨fun n _ => hsame n,
          h.pending.modify _ _ _ _ (fun _ _ => rfl), fun hsid => ?_⟩
        obtain ⟨c, hc, hcid⟩ := List.any_eq_true.mp hexists
        rw [hsame]
        exact hown row hrow hsid c hc (by simpa using hcid)
    | inserted _ k hnew hins =>
        have hcommand := hasCommand_insert hins
        refine ⟨fun n hne => ?_, h.pending.insert hins, fun _ => ?_⟩
        · simp [hcommand, hne]
        · simp [hcommand]
  refine h.of_written messageId (standingElsewhere_modify _ _ _ hid hkeys)
    hcommands.2.1 hcommands.1 (fun n hn => (List.mem_cons.mp hn).symm)
    (fun _ => hlt) ?_
  intro row' hrow'
  rw [Table.byRowid_modify, hrow] at hrow'
  simp only [Option.map_some, hrid, beq_self_eq_true, if_true,
    Option.some.injEq] at hrow'
  have hstand := hf row
  rw [hrow'] at hstand
  obtain ⟨hstatus, hsid⟩ := Prod.mk.injEq .. ▸ hstand
  refine ⟨fun _ hawaits => hcommands.2.2 ?_, fun _ => by rw [hstatus]; decide⟩
  simp only [MessageRow.awaitsServer, Bool.and_eq_true,
    Bool.not_eq_true'] at hawaits
  rw [← hsid]
  exact hawaits.2

/-- An acknowledged message no longer waits and is not failed. -/
theorem OutboxInv.acknowledged
    (h : OutboxInv s queued) {messageId serverMessageId : Nat}
    {messageSeq : Int} {o : Table OutboxRow} {res : Except StoreError PUnit}
    {s' : Store}
    (hout : AckOutcome messageId serverMessageId messageSeq o env s res s')
    (hpending : AllPending o)
    (hothers : ∀ n, n ≠ messageId → hasCommand o n = hasCommand s.outbox n) :
    OutboxInv s' queued := by
  cases hout with
  | failed e he =>
      exact h
  | acked row t hrow ht =>
      have hlt := s.message.lt_of_byRowid hrow
      have hnext : t.nextRowid = s.message.nextRowid :=
        (Table.rows_of_update ht).2
      refine h.of_written messageId
        ((rowsKept_deleteWhere s.message _).trans
          (standingElsewhere_update ht))
        hpending hothers (fun n hn => Or.inl hn) (fun _ => ?_) ?_
      · show messageId < t.nextRowid
        rw [hnext]
        exact hlt
      · intro row' hrow'
        have hrid : row.id = messageId :=
          ((s.message.byRowid_eq_some_iff _ _).mp hrow).2
        rw [byRowid_of_update ht, byRowid_dedupe_self, hrow] at hrow'
        simp only [Option.map_some, rowid_message, hrid, beq_self_eq_true,
          if_true, Option.some.injEq] at hrow'
        subst hrow'
        refine ⟨fun _ hawaits => ?_, fun _ => ?_⟩
        · simp [MessageRow.awaitsServer, MessageRow.acknowledge] at hawaits
        · simp [MessageRow.acknowledge]

/-- A reconciled message no longer waits, and its command is gone. -/
theorem OutboxInv.reconciled
    (h : OutboxInv s queued) {messageId serverMessageId : Nat}
    {res : Except StoreError PUnit} {s' : Store}
    (hout : ReconcileOutcome messageId serverMessageId env s res s') :
    OutboxInv s' queued := by
  cases hout with
  | failed e he =>
      exact h
  | reconciled t ht =>
      have hgone := hasCommand_withoutCommand_self s messageId
      have hnext : t.nextRowid = s.message.nextRowid :=
        (Table.rows_of_update ht).2
      refine h.of_written messageId (standingElsewhere_update ht)
        (h.pending.withoutCommand messageId)
        (fun n hne => hasCommand_withoutCommand_of_ne s hne)
        (fun n hn => Or.inl hn) ?_ ?_
      · rintro (hm | hm)
        · show messageId < t.nextRowid
          rw [hnext]
          exact h.queuedIds messageId hm
        · rw [hgone] at hm
          cases hm
      · intro row' hrow'
        rw [byRowid_of_update ht, Option.map_eq_some_iff] at hrow'
        obtain ⟨row, hrow, rfl⟩ := hrow'
        have hrid : row.id = messageId :=
          ((s.message.byRowid_eq_some_iff _ _).mp hrow).2
        refine ⟨fun _ hawaits => ?_, fun hm => ?_⟩
        · simp [MessageRow.awaitsServer, MessageRow.reconcile, hrid]
            at hawaits
        · rw [hgone] at hm
          cases hm

/-- The row of a message after its status was set. -/
theorem byRowid_withStatus
    {messageId : Nat} {status now : Int} {row' : MessageRow}
    (h : (s.withStatus messageId status now).byRowid messageId = some row') :
    ∃ row, s.message.byRowid messageId = some row ∧
      row'.status = status ∧ row'.hasServerId = row.hasServerId := by
  rw [Store.withStatus, Table.byRowid_modify, Option.map_eq_some_iff] at h
  obtain ⟨row, hrow, rfl⟩ := h
  have hrid : row.id = messageId :=
    ((s.message.byRowid_eq_some_iff _ _).mp hrow).2
  refine ⟨row, hrow, ?_⟩
  simp [hrid, MessageRow.hasServerId]

/-- A rejected message is failed, and its command is gone. -/
theorem OutboxInv.outboxReject
    (h : OutboxInv s queued) (messageId : Nat) :
    OutboxInv ((PrivchatSdk.outboxReject messageId 3).after env s) queued := by
  refine .after fun res s' hrun => ?_
  rcases outboxReject_cases hrun with ⟨e, -, rfl⟩ | ⟨-, rfl⟩
  · exact h
  · have hgone := hasCommand_withoutCommand_self s messageId
    refine h.of_written messageId (standingElsewhere_withStatus _ _ _ _)
      (h.pending.withoutCommand messageId)
      (fun n hne => hasCommand_withoutCommand_of_ne s hne)
      (fun n hn => Or.inl hn) ?_ ?_
    · rintro (hm | hm)
      · exact h.queuedIds messageId hm
      · rw [hgone] at hm
        cases hm
    · intro row' hrow'
      obtain ⟨row, -, hstatus, -⟩ := byRowid_withStatus hrow'
      refine ⟨fun _ hawaits => ?_, fun hm => ?_⟩
      · simp [MessageRow.awaitsServer, hstatus] at hawaits
      · rw [hgone] at hm
        cases hm

theorem OutboxInv.outboxBumpRetry
    (h : OutboxInv s queued) (messageId : Nat) (nextAttemptAt : Int)
    (lastError : String) :
    OutboxInv
      ((PrivchatSdk.outboxBumpRetry messageId nextAttemptAt lastError).after
        env s)
      queued := by
  refine .after fun res s' hrun => ?_
  rcases outboxBumpRetry_cases hrun with ⟨e, -, rfl⟩ | ⟨-, rfl⟩
  · exact h
  · refine h.of_kept (.refl _) ?_ ?_
    · show AllPending (s.retried messageId nextAttemptAt lastError env.now)
      exact h.pending.modify _ _ _ _ (fun _ hc => hc)
    · intro m
      show hasCommand (s.retried messageId nextAttemptAt lastError env.now) m =
        hasCommand s.outbox m
      rw [Store.retried, hasCommand_modify]
      exact fun _ => rfl

/-- A command may go when its message does not wait for the server. -/
theorem OutboxInv.withoutCommand
    (h : OutboxInv s queued) {messageId : Nat}
    (hok : messageId ∈ queued →
      ∀ row, s.message.byRowid messageId = some row →
        row.awaitsServer = false) :
    OutboxInv { s with outbox := s.withoutCommand messageId } queued := by
  have hgone := hasCommand_withoutCommand_self s messageId
  refine h.of_written messageId (.refl _) (h.pending.withoutCommand messageId)
    (fun n hne => hasCommand_withoutCommand_of_ne s hne)
    (fun n hn => Or.inl hn) ?_ ?_
  · rintro (hm | hm)
    · exact h.queuedIds messageId hm
    · rw [hgone] at hm
      cases hm
  · intro row hrow
    refine ⟨fun hm hawaits => ?_, fun hm => ?_⟩
    · rw [hok hm row hrow] at hawaits
      cases hawaits
    · rw [hgone] at hm
      cases hm

theorem OutboxInv.outboxDrop
    (h : OutboxInv s queued) {messageId : Nat}
    (hok : (StoreOp.outboxDrop messageId).KeepsOutbox queued env s) :
    OutboxInv ((PrivchatSdk.outboxDrop messageId).after env s) queued := by
  refine .after fun res s' hrun => ?_
  rcases outboxDrop_cases hrun with ⟨e, -, rfl⟩ | ⟨-, rfl⟩
  · exact h
  · exact h.withoutCommand hok

theorem OutboxInv.updateMessageStatus
    (h : OutboxInv s queued) {messageId : Nat} {status : Int}
    (hok : (StoreOp.updateMessageStatus messageId status).KeepsOutbox
      queued env s) :
    OutboxInv ((PrivchatSdk.updateMessageStatus messageId status).after env s)
      queued := by
  refine .after fun res s' hrun => ?_
  rcases updateMessageStatus_cases hrun with ⟨e, -, rfl⟩ | ⟨-, rfl⟩
  · exact h
  · refine h.of_written messageId (standingElsewhere_withStatus _ _ _ _)
      h.pending (fun _ _ => rfl) (fun n hn => Or.inl hn) ?_ ?_
    · rintro (hm | hm)
      · exact h.queuedIds messageId hm
      · exact h.commandIds messageId hm
    · intro row' hrow'
      obtain ⟨row, hrow, hstatus, hsid⟩ := byRowid_withStatus hrow'
      obtain ⟨hfailed, hsending⟩ := hok row hrow
      refine ⟨fun hm hawaits => ?_, fun hm hthree => ?_⟩
      · simp only [MessageRow.awaitsServer, Bool.and_eq_true, beq_iff_eq,
          Bool.not_eq_true'] at hawaits
        exact hsending (hstatus.symm.trans hawaits.1) hm
          (hsid.symm.trans hawaits.2)
      · have hnone := hfailed (hstatus.symm.trans hthree)
        rw [hm] at hnone
        cases hnone

/-- An upserted message is known to the server. -/
theorem OutboxInv.upserted
    (h : OutboxInv s queued) {currentUid : Option Nat}
    {input : UpsertRemoteMessageInput}
    (hok : KeepsUnfailed currentUid s input) :
    OutboxInv (s.afterUpsert currentUid env input) queued := by
  refine .after fun res s' hrun => ?_
  obtain ⟨ht, hout, -⟩ := upsert_messages hrun
  refine
    { pending := by rw [hout]; exact h.pending
      commandIds := ?_, queuedIds := ?_, sending := ?_, failed := ?_ }
  · intro m hm
    rw [hout] at hm
    exact Nat.lt_of_lt_of_le (h.commandIds m hm) ht.nextRowid_le
  · intro m hm
    exact Nat.lt_of_lt_of_le (h.queuedIds m hm) ht.nextRowid_le
  · intro m hm row' hrow' hawaits
    rw [hout]
    rcases ht.row_cases hrow' with
      hold | ⟨base, row, hsid, -, -, -, rfl⟩ | ⟨rfl, -⟩
    · exact h.sending m hm row' hold hawaits
    · simp [MessageRow.awaitsServer, MessageRow.hasServerId,
        UpsertRemoteMessageInput.overwrite, hsid] at hawaits
    · exact absurd (h.queuedIds _ hm) (Nat.lt_irrefl _)
  · intro m hm row' hrow'
    rw [hout] at hm
    rcases ht.row_cases hrow' with
      hold | ⟨base, row, hsid, htarget, rfl, -, rfl⟩ | ⟨rfl, -⟩
    · exact h.failed m hm row' hold
    · intro hthree
      have hnone := hok base row hsid htarget hthree
      rw [hm] at hnone
      cases hnone
    · exact absurd (h.commandIds _ hm) (Nat.lt_irrefl _)

@[simp] theorem noteQueued_plain
    {α : Type} (x : StoreM α) (env : Env) (s : Store) (queued : List Nat) :
    noteQueued queued (withEffect x (fun _ => .plain) env s).1 = queued := by
  cases hrun : withEffect x (fun _ => .plain) env s with
  | mk res s' =>
  obtain ⟨res₀, -, rfl⟩ := withEffect_run hrun
  cases res₀ with
  | ok a => rfl
  | error e => rfl

theorem noteQueued_contentOnly
    {op : StoreOp} (h : op.contentOnly = true) :
    noteQueued queued (op.exec env s).1 = queued := by
  cases op <;> first | exact noteQueued_plain _ _ _ _ | cases h

/-- Every operation that meets its condition keeps the correspondence. -/
theorem OutboxInv.exec
    (h : OutboxInv s queued) {op : StoreOp}
    (hok : op.KeepsOutbox queued env s) :
    OutboxInv (op.exec env s).2 (noteQueued queued (op.exec env s).1) := by
  by_cases hcontent : op.contentOnly = true
  · have hstep : ContentStep s (op.exec env s).2 :=
      contentStep_of_contentOnly hcontent env s
    rw [noteQueued_contentOnly hcontent]
    refine h.of_kept (hstep.rowsKept ?_) ?_ ?_
    · intro r r' heq
      have hstatus := congrArg MessageIdentity.status heq
      have hsid := congrArg MessageIdentity.serverMessageId heq
      simp only [MessageRow.identity] at hstatus hsid
      simp [MessageRow.standing, MessageRow.hasServerId, hstatus, hsid]
    · rw [hstep.outbox]
      exact h.pending
    · intro m
      rw [hstep.outbox]
  cases op with
  | createLocalMessage input localMessageId =>
      simpa [StoreOp.exec, withEffect_after] using
        h.createLocalMessage input localMessageId
  | createLocalMessageQueued =>
      cases hrun : StoreOp.exec _ env s with
      | mk res s' =>
      obtain ⟨res₀, hx, rfl⟩ := withEffect_run hrun
      exact h.createLocalMessageQueued (createLocalMessageQueued_outcome hx)
  | upsertRemoteMessage currentUid input =>
      simp only [StoreOp.exec, withEffect_after, noteQueued_plain]
      exact h.upserted hok
  | batchUpsertRemoteMessages currentUid inputs =>
      simp only [StoreOp.exec, withEffect_after, noteQueued_plain,
        after_batchUpsert]
      exact EventRun.Guarded.invariant (fun s => OutboxInv s queued)
        (fun s input hs hkeeps => hs.upserted hkeeps) h hok
  | outboxEnqueue =>
      cases hrun : StoreOp.exec _ env s with
      | mk res s' =>
      obtain ⟨res₀, hx, rfl⟩ := withEffect_run hrun
      cases outboxEnqueue_outcome hx with
      | failed e => exact h
      | enqueued row o hrow hpos ho =>
          exact h.enqueued (fun _ => rfl) hrow hok ho
  | finalizeAttachmentAndEnqueue =>
      cases hrun : StoreOp.exec _ env s with
      | mk res s' =>
      obtain ⟨res₀, hx, rfl⟩ := withEffect_run hrun
      cases finalizeAttachmentAndEnqueue_outcome hx with
      | failed e => exact h
      | enqueued row o hrow hpos ho =>
          exact h.enqueued (fun _ => rfl) hrow hok ho
  | outboxAckSent messageId serverMessageId messageSeq =>
      simp only [StoreOp.exec, withEffect_after, noteQueued_plain]
      refine .after fun res s' hrun => ?_
      exact h.acknowledged (outboxAckSent_outcome hrun)
        (h.pending.withoutCommand messageId)
        (fun n hne => hasCommand_withoutCommand_of_ne s hne)
  | markMessageSent messageId serverMessageId messageSeq =>
      simp only [StoreOp.exec, withEffect_after, noteQueued_plain]
      refine .after fun res s' hrun => ?_
      exact h.acknowledged (markMessageSent_outcome hrun) h.pending
        (fun _ _ => rfl)
  | outboxReconcileSent messageId serverMessageId =>
      simp only [StoreOp.exec, withEffect_after, noteQueued_plain]
      exact .after fun res s' hrun =>
        h.reconciled (outboxReconcileSent_outcome hrun)
  | outboxBumpRetry messageId nextAttemptAt lastError =>
      simpa [StoreOp.exec, withEffect_after] using
        h.outboxBumpRetry messageId nextAttemptAt lastError
  | outboxReject messageId =>
      simpa [StoreOp.exec, withEffect_after] using h.outboxReject messageId
  | outboxDrop messageId =>
      simpa [StoreOp.exec, withEffect_after] using h.outboxDrop hok
  | updateMessageStatus messageId status =>
      simpa [StoreOp.exec, withEffect_after] using h.updateMessageStatus hok
  | deleteMessageLocal =>
      cases hrun : StoreOp.exec _ env s with
      | mk res s' =>
      obtain ⟨res₀, hx, rfl⟩ := withEffect_run hrun
      rcases deleteMessageLocal_cases hx with
        ⟨rfl, hnone⟩ | ⟨stored, rfl, -, rfl⟩
      · cases res₀ with
        | error e => exact h
        | ok found =>
            cases found with
            | none => exact h
            | some stored => exact absurd rfl (hnone stored)
      · exact h.of_kept (rowsKept_deleteWhere _ _) h.pending (fun _ => rfl)
  | deleteChannelLocal =>
      cases hrun : StoreOp.exec _ env s with
      | mk res s' =>
      obtain ⟨res₀, hx, rfl⟩ := withEffect_run hrun
      rcases deleteChannelLocal_cases hx with ⟨rfl, e, rfl⟩ | ⟨rfl, rfl⟩
      · exact h
      · exact h.of_kept (rowsKept_deleteWhere _ _) h.pending (fun _ => rfl)
  | _ => exact absurd rfl hcontent

end Operations

section Deleted

/-- The deleted messages are gone for good. -/
def DeletedGone (c : Client) : Prop :=
  ∀ m ∈ c.deleted,
    m < c.store.message.nextRowid ∧ c.store.message.byRowid m = none

/-- No operation brings a row id back. -/
theorem rowsKept_exec (op : StoreOp) (env : Env) (s : Store) :
    RowsKept (fun _ => ()) s.message (op.exec env s).2.message := by
  by_cases hop : op.isUpsert = false
  · exact (identityStep_exec hop env s).rows.weaken (fun _ _ _ => rfl)
  cases op with
  | upsertRemoteMessage currentUid input =>
      simp only [StoreOp.exec, withEffect_after]
      exact rowsKept_of_upsert (upsert_messages rfl).1
  | batchUpsertRemoteMessages currentUid inputs =>
      simp only [StoreOp.exec, withEffect_after, after_batchUpsert]
      refine EventRun.run_invariant
        (fun s' : Store => RowsKept (fun _ => ()) s.message s'.message)
        (fun s' input hs => ?_) (.refl _) inputs
      exact hs.trans (rowsKept_of_upsert (upsert_messages rfl).1)
  | _ => exact absurd rfl hop

/-- What a deletion reports as deleted is gone. -/
theorem deleted_gone_exec
    {op : StoreOp} {env : Env} {s s' : Store} {ids : List Nat}
    (h : op.exec env s = (.ok (.deleted ids), s')) :
    ∀ m ∈ ids, m < s'.message.nextRowid ∧ s'.message.byRowid m = none := by
  cases op with
  | deleteMessageLocal messageId =>
      obtain ⟨res₁, hrun, hmap⟩ := withEffect_run h
      rcases deleteMessageLocal_cases hrun with
        ⟨rfl, hnone⟩ | ⟨stored, rfl, hstored, rfl⟩
      · rcases res₁ with e | found
        · cases hmap
        · cases found with
          | none => cases hmap
          | some stored => exact absurd rfl (hnone stored)
      · obtain ⟨row, hrow, rfl⟩ := Option.map_eq_some_iff.mp hstored
        have hrid : row.id = messageId :=
          ((s.message.byRowid_eq_some_iff _ _).mp hrow).2
        cases hmap
        intro m hm
        have hmid : m = messageId := by
          simpa [MessageRow.toStored, hrid] using hm
        subst hmid
        refine ⟨s.message.lt_of_byRowid hrow, ?_⟩
        show (s.message.deleteWhere (fun r => r.id == m)).byRowid m = none
        rw [Table.byRowid_deleteWhere, hrow]
        simp [hrid]
  | deleteChannelLocal channelId =>
      obtain ⟨res₁, hrun, hmap⟩ := withEffect_run h
      rcases deleteChannelLocal_cases hrun with ⟨-, e, rfl⟩ | ⟨rfl, rfl⟩
      · cases hmap
      · cases hmap
        intro m hm
        obtain ⟨row, hrow, rfl⟩ := List.mem_map.mp hm
        obtain ⟨hmem, hchannel⟩ := List.mem_filter.mp hrow
        have hfound : s.message.byRowid row.id = some row :=
          (s.message.byRowid_eq_some_iff _ _).mpr ⟨hmem, rfl⟩
        refine ⟨s.message.lt_of_byRowid hfound, ?_⟩
        show (s.message.deleteWhere (fun r => r.channelId == channelId)).byRowid
          row.id = none
        rw [Table.byRowid_deleteWhere, hfound]
        simpa using hchannel
  | _ =>
      obtain ⟨res₁, -, hmap⟩ := withEffect_run h
      cases res₁ with
      | error e => cases hmap
      | ok a => cases hmap

theorem DeletedGone.of_rowsKept
    {c c' : Client} (h : DeletedGone c)
    (hrows : RowsKept (fun _ => ()) c.store.message c'.store.message)
    (hdeleted : c'.deleted = c.deleted) :
    DeletedGone c' := by
  intro m hm
  rw [hdeleted] at hm
  obtain ⟨hlt, hgone⟩ := h m hm
  exact ⟨Nat.lt_of_lt_of_le hlt hrows.nextRowid, hrows.gone hlt hgone⟩

theorem DeletedGone.runOp
    {c : Client} (h : DeletedGone c) (env : Env) (op : StoreOp) :
    DeletedGone (c.runOp env op) := by
  have hrows := rowsKept_exec op env c.store
  cases hrun : op.exec env c.store with
  | mk res s' =>
  rw [hrun] at hrows
  have hmid : DeletedGone { c with store := s' } :=
    h.of_rowsKept hrows rfl
  unfold Client.runOp Client.record
  rw [hrun]
  split
  · exact hmid
  · rename_i ids hres
    intro m hm
    rcases List.mem_append.mp hm with hm | hm
    · dsimp only at hres
      rw [hres] at hrun
      exact deleted_gone_exec hrun m hm
    · exact hmid m hm
  · exact hmid

/-- The row of a sent message is there when its attempt is built. -/
theorem Client.sendNext_cases
    (c : Client) (env : Env) (fresh : Nat) :
    RowsKept (fun _ => ()) c.store.message (c.sendNext env fresh).store.message ∧
      (c.sendNext env fresh).deleted = c.deleted ∧
      (c.sendNext env fresh).queued = c.queued ∧
      ((c.sendNext env fresh).attempts = c.attempts ∨
        ∃ a row, (c.sendNext env fresh).attempts = a :: c.attempts ∧
          c.store.message.byRowid a.messageId = some row) := by
  unfold Client.sendNext
  split
  · exact ⟨.refl _, rfl, rfl, Or.inl rfl⟩
  · rename_i command rest hbatch
    split
    · exact ⟨.refl _, rfl, rfl, Or.inl rfl⟩
    · rename_i messageId hmsg
      cases hrun : prepareSend command messageId fresh env c.store with
      | mk res s' =>
      cases prepareSend_outcome hrun with
      | failed e => exact ⟨.refl _, rfl, rfl, Or.inl rfl⟩
      | undropped hgone => exact ⟨.refl _, rfl, rfl, Or.inl rfl⟩
      | dropped hgone => exact ⟨.refl _, rfl, rfl, Or.inl rfl⟩
      | identified row hrow hpos =>
          exact ⟨.refl _, rfl, rfl, Or.inr ⟨_, row, rfl, hrow⟩⟩
      | numbered row hrow hzero =>
          refine ⟨?_, rfl, rfl, Or.inr ⟨_, row, rfl, hrow⟩⟩
          exact rowsKept_numbered (fun _ _ _ => rfl) _ _ _ _

theorem DeletedGone.step
    {c : Client} (h : DeletedGone c) (event : Env × ClientEvent) :
    DeletedGone (c.step event) := by
  obtain ⟨env, event⟩ := event
  cases event with
  | op op =>
      exact h.runOp env op
  | peek commandType limit =>
      unfold Client.step
      dsimp only
      split
      · exact h
      · exact h
  | sendNext fresh =>
      obtain ⟨hrows, hdeleted, -, -⟩ := c.sendNext_cases env fresh
      exact h.of_rowsKept hrows hdeleted
  | stopDrain =>
      exact h

/-- Nothing undeletes a message. -/
theorem Client.deleted_step
    {c : Client} {m : Nat} (hm : m ∈ c.deleted) (event : Env × ClientEvent) :
    m ∈ (c.step event).deleted := by
  obtain ⟨env, event⟩ := event
  cases event with
  | op op =>
      unfold Client.step Client.runOp Client.record
      dsimp only
      split
      · exact hm
      · exact List.mem_append_right _ hm
      · exact hm
  | peek commandType limit =>
      unfold Client.step
      dsimp only
      split
      · exact hm
      · exact hm
  | sendNext fresh =>
      show m ∈ (c.sendNext env fresh).deleted
      rw [(c.sendNext_cases env fresh).2.1]
      exact hm
  | stopDrain =>
      exact hm

/-- The attempts made for a message. -/
def Client.attemptsFor (c : Client) (m : Nat) : List SendAttempt :=
  c.attempts.filter (fun a => a.messageId == m)

/-- A step builds no attempt for a deleted message. -/
theorem DeletedGone.attemptsFor_step
    {c : Client} (h : DeletedGone c) {m : Nat} (hm : m ∈ c.deleted)
    (event : Env × ClientEvent) :
    (c.step event).attemptsFor m = c.attemptsFor m := by
  obtain ⟨env, event⟩ := event
  cases event with
  | op op =>
      show ((c.runOp env op).attempts.filter _) = _
      simp [Client.runOp, Client.attemptsFor]
  | peek commandType limit =>
      unfold Client.step
      dsimp only
      split
      · rfl
      · rfl
  | sendNext fresh =>
      obtain ⟨-, -, -, hsame | ⟨a, row, hcons, hrow⟩⟩ :=
        c.sendNext_cases env fresh
      · show (c.sendNext env fresh).attempts.filter _ = _
        rw [hsame]
        rfl
      · show (c.sendNext env fresh).attempts.filter _ = _
        have hne : a.messageId ≠ m := by
          intro heq
          rw [heq, (h m hm).2] at hrow
          cases hrow
        rw [hcons, List.filter_cons_of_neg (by simpa using hne)]
        rfl
  | stopDrain =>
      rfl

theorem deletedGone_run (events : List (Env × ClientEvent)) :
    DeletedGone (EventRun.run Client.step Client.start events) :=
  EventRun.run_invariant DeletedGone (fun _ event h => h.step event)
    (by simp [DeletedGone, Client.start]) events

/-- No run sends a message again that it has deleted. -/
theorem attempts_after_delete
    (earlier later : List (Env × ClientEvent)) (m : Nat)
    (hm : m ∈ (EventRun.run Client.step Client.start earlier).deleted) :
    (EventRun.run Client.step Client.start (earlier ++ later)).attemptsFor m =
      (EventRun.run Client.step Client.start earlier).attemptsFor m := by
  rw [EventRun.run_append]
  refine (EventRun.run_invariant
    (fun c : Client => DeletedGone c ∧ m ∈ c.deleted ∧
      c.attemptsFor m =
        (EventRun.run Client.step Client.start earlier).attemptsFor m)
    ?_ ⟨deletedGone_run earlier, hm, rfl⟩ later).2.2
  rintro c event ⟨hgone, hin, hsame⟩
  exact ⟨hgone.step event, Client.deleted_step hin event,
    (hgone.attemptsFor_step hin event).trans hsame⟩

end Deleted

section Runs

/-- The event keeps the statuses and the outbox in agreement. -/
def Client.KeepsOutbox (c : Client) : Env × ClientEvent → Prop
  | (env, .op op) => op.KeepsOutbox c.queued env c.store
  | _ => True

theorem OutboxInv.runOp
    {c : Client} (h : OutboxInv c.store c.queued) {env : Env} {op : StoreOp}
    (hok : op.KeepsOutbox c.queued env c.store) :
    OutboxInv (c.runOp env op).store (c.runOp env op).queued := by
  have hexec := h.exec hok
  unfold Client.runOp
  rw [Client.record_store]
  cases hres : (op.exec env c.store).1 with
  | error e =>
      rw [hres] at hexec
      exact hexec
  | ok effect =>
      rw [hres] at hexec
      cases effect with
      | plain => exact hexec
      | queued messageId => exact hexec
      | deleted messageIds => exact hexec

theorem OutboxInv.sendNext
    {c : Client} (h : OutboxInv c.store c.queued) (env : Env) (fresh : Nat) :
    OutboxInv (c.sendNext env fresh).store (c.sendNext env fresh).queued := by
  unfold Client.sendNext
  split
  · exact h
  · rename_i command rest hbatch
    split
    · exact h
    · rename_i messageId hmsg
      cases hrun : prepareSend command messageId fresh env c.store with
      | mk res s' =>
      cases prepareSend_outcome hrun with
      | failed e => exact h
      | undropped hgone => exact h
      | dropped hgone =>
          refine h.withoutCommand (fun _ row hrow => ?_)
          rw [hgone] at hrow
          cases hrow
      | identified row hrow hpos => exact h
      | numbered row hrow hzero =>
          refine h.of_kept ?_ h.pending (fun _ => rfl)
          exact rowsKept_numbered (fun _ _ _ => rfl) _ _ _ _

theorem OutboxInv.step
    {c : Client} (h : OutboxInv c.store c.queued) {event : Env × ClientEvent}
    (hok : c.KeepsOutbox event) :
    OutboxInv (c.step event).store (c.step event).queued := by
  obtain ⟨env, event⟩ := event
  cases event with
  | op op =>
      exact h.runOp hok
  | peek commandType limit =>
      unfold Client.step
      dsimp only
      split
      · exact h
      · exact h
  | sendNext fresh =>
      exact h.sendNext env fresh
  | stopDrain =>
      exact h

theorem outboxInv_start : OutboxInv Client.start.store Client.start.queued where
  pending := by simp [AllPending, Client.start, Store.empty]
  commandIds := by simp [hasCommand, Client.start, Store.empty]
  queuedIds := by simp [Client.start]
  sending := by simp [Client.start]
  failed := by simp [hasCommand, Client.start, Store.empty]

/--
In every run whose events meet the condition, a queued message that is shown as
sending and has no server id has exactly one command, which is pending, and no
failed message has one; and no message is sent after its deletion.
-/
theorem outbox_matches_status
    {events : List (Env × ClientEvent)}
    (h : EventRun.Guarded Client.step Client.KeepsOutbox Client.start events) :
    let c := EventRun.run Client.step Client.start events
    (∀ m ∈ c.queued, ∀ row, c.store.message.byRowid m = some row →
      row.status = 1 → row.hasServerId = false →
        ∃! o, o ∈ c.store.outbox.rows ∧ o.messageId = some m ∧
          o.status = "pending") ∧
    (∀ o ∈ c.store.outbox.rows, ∀ m row, o.messageId = some m →
      c.store.message.byRowid m = some row → row.status ≠ 3) ∧
    (∀ earlier later, events = earlier ++ later →
      ∀ m ∈ (EventRun.run Client.step Client.start earlier).deleted,
        c.attemptsFor m =
          (EventRun.run Client.step Client.start earlier).attemptsFor m) := by
  have hinv := EventRun.Guarded.invariant
    (fun c : Client => OutboxInv c.store c.queued)
    (fun _ _ hc hok => hc.step hok) outboxInv_start h
  refine ⟨?_, ?_, ?_⟩
  · intro m hm row hrow hstatus hsid
    have hcommand := hinv.sending m hm row hrow
      (by simp [MessageRow.awaitsServer, hstatus, hsid])
    obtain ⟨o, ho, hom⟩ := (hasCommand_iff _ _).mp hcommand
    refine ⟨o, ⟨ho, hom, hinv.pending o ho⟩, ?_⟩
    rintro o' ⟨ho', hom', -⟩
    exact command_unique ho' ho hom' hom
  · intro o ho m row hom hrow
    exact hinv.failed m ((hasCommand_iff _ _).mpr ⟨o, ho, hom⟩) row hrow
  · rintro earlier later rfl m hm
    exact attempts_after_delete earlier later m hm

/-- A message is refused and sent again; a second one is deleted while queued. -/
def retryAndDelete : List (Env × ClientEvent) :=
  [ (.calm 1000, .op (.createLocalMessageQueued
      (.text 10 1 "hello") 7 "message" [] none)),
    (.calm 1001, .op (.outboxReject 1)),
    (.calm 1002, .op (.outboxEnqueue 1 "message" 10 [] none)),
    (.calm 1003, .op (.createLocalMessageQueued
      (.text 10 1 "bye") 8 "message" [] none)),
    (.calm 1004, .op (.deleteMessageLocal 2)),
    (.calm 1005, .peek "message" 20),
    (.calm 1005, .sendNext 50),
    (.calm 1005, .sendNext 51) ]

theorem guarded_retryAndDelete :
    EventRun.Guarded Client.step Client.KeepsOutbox Client.start
      retryAndDelete := by
  refine ⟨trivial, trivial, ?_, trivial, trivial, trivial, trivial, trivial,
    trivial⟩
  -- the rejection removed the only command
  intro row hrow hsid c hc
  exact absurd hc List.not_mem_nil

/-- The refused message has its command again, the deleted one is not sent. -/
theorem outbox_matches_status_after_retry :
    (∃! o, o ∈ (EventRun.run Client.step Client.start
          retryAndDelete).store.outbox.rows ∧
        o.messageId = some 1 ∧ o.status = "pending") ∧
      (EventRun.run Client.step Client.start retryAndDelete).attemptsFor 2 =
        [] := by
  obtain ⟨hsending, -, hdeleted⟩ := outbox_matches_status guarded_retryAndDelete
  refine ⟨?_, ?_⟩
  · exact hsending 1 (by decide) _ rfl (by decide) (by decide)
  · rw [hdeleted (retryAndDelete.take 5) (retryAndDelete.drop 5) rfl 2
      (by decide)]
    decide

/--
The explicit acknowledgement of a queued message removes its command and leaves
the message sending, without a server id and without a command.
-/
theorem dropped_command_leaves_sending :
    ¬ ∀ events : List (Env × ClientEvent),
      let c := EventRun.run Client.step Client.start events
      ∀ m ∈ c.queued, ∀ row, c.store.message.byRowid m = some row →
        row.status = 1 → row.hasServerId = false →
          ∃ o ∈ c.store.outbox.rows, o.messageId = some m := by
  intro h
  obtain ⟨o, ho, -⟩ := h
    [ (.calm 1000, .op (.createLocalMessageQueued
        (.text 10 1 "hello") 7 "message" [] none)),
      (.calm 1001, .op (.outboxDrop 1)) ]
    1 (by decide) _ rfl (by decide) (by decide)
  exact absurd ho List.not_mem_nil

end Runs

end PrivchatSdk
