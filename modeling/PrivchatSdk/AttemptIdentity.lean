import PrivchatSdk.Outbound

/-!
# One local id for every attempt of a command

The server recognises a retry by its local id.  The id stands in the message
row, the command id is made from it, and a drain reads the row again for every
attempt.

An upsert writes the local id of its input into the row, and history carries
none.  So the attempts of a command share their local id in every run whose
upserts leave alone the local id of rows that a command waits for
(`attempts_keep_identity`), and an upsert from history between two attempts
separates them (`attempts_change_identity`).
-/

namespace PrivchatSdk

open StatementExec RelTable

section Commands

/-- The command of a message carries the local id of the row, while there is one. -/
def CommandHolds (t : Table MessageRow) (o : OutboxRow) : Prop :=
  ∀ m, o.messageId = some m →
    m < t.nextRowid ∧
      ∃ n, o.commandId = .msg n ∧ 0 < n ∧
        ∀ row, t.byRowid m = some row → row.localMessageId = n

theorem CommandHolds.of_rowsKept
    {t t' : Table MessageRow} {o : OutboxRow}
    (h : CommandHolds t o)
    (hkept : RowsKept MessageRow.localMessageId t t') :
    CommandHolds t' o := by
  intro m hm
  obtain ⟨hlt, n, hcmd, hpos, hrow⟩ := h m hm
  refine ⟨Nat.lt_of_lt_of_le hlt hkept.nextRowid, n, hcmd, hpos, ?_⟩
  intro row' hrow'
  obtain ⟨row, hold, heq⟩ := hkept.rows m hlt row' hrow'
  exact heq.trans (hrow row hold)

theorem CommandHolds.congr
    {t : Table MessageRow} {o o' : OutboxRow}
    (h : CommandHolds t o)
    (hcmd : o'.commandId = o.commandId) (hmsg : o'.messageId = o.messageId) :
    CommandHolds t o' := by
  intro m hm
  rw [hmsg] at hm
  rw [hcmd]
  exact h m hm

/-- A command just made from the row of its message. -/
theorem commandHolds_of_row
    {t : Table MessageRow} {o : OutboxRow} {m : Nat} {row : MessageRow}
    (hmsg : o.messageId = some m)
    (hrow : t.byRowid m = some row) (hpos : 0 < row.localMessageId)
    (hcmd : o.commandId = .msg row.localMessageId) :
    CommandHolds t o := by
  intro m' hm'
  rw [hmsg] at hm'
  cases hm'
  refine ⟨t.lt_of_byRowid hrow, row.localMessageId, hcmd, hpos, ?_⟩
  intro row' hrow'
  rw [hrow] at hrow'
  cases hrow'
  rfl

/-- An operation that keeps local ids and makes commands from them. -/
structure IdentityStep (s s' : Store) : Prop where
  rows : RowsKept MessageRow.localMessageId s.message s'.message
  commands :
    (∀ o ∈ s.outbox.rows, CommandHolds s.message o) →
      ∀ o ∈ s'.outbox.rows, CommandHolds s'.message o

theorem IdentityStep.refl (s : Store) : IdentityStep s s where
  rows := .refl _
  commands h := h

/-- A step whose outbox rows were all there before. -/
theorem identityStep_of_subset
    {s s' : Store}
    (hrows : RowsKept MessageRow.localMessageId s.message s'.message)
    (hsub : ∀ o ∈ s'.outbox.rows, o ∈ s.outbox.rows) :
    IdentityStep s s' where
  rows := hrows
  commands h o ho := (h o (hsub o ho)).of_rowsKept hrows

/-- A command row written for the row of a message. -/
theorem commandHolds_of_upserted
    {commandType : String} {messageId channelId : Nat} {payload : List UInt8}
    {routeKey : Option String} {now : Int} {t : Table MessageRow}
    {u u' : Table OutboxRow} {row : MessageRow}
    (hrow : t.byRowid messageId = some row) (hpos : 0 < row.localMessageId)
    (hu : OutboxUpserted (.msg row.localMessageId) commandType messageId
      channelId payload routeKey now u u')
    (h : ∀ o ∈ u.rows, CommandHolds t o) :
    ∀ o ∈ u'.rows, CommandHolds t o := by
  intro o ho
  cases hu with
  | refreshed hexists =>
      rw [Table.mem_modify] at ho
      obtain ⟨o₀, ho₀, rfl⟩ := ho
      split
      · exact (h o₀ ho₀).congr rfl rfl
      · exact h o₀ ho₀
  | inserted _ n hnew hins =>
      obtain ⟨-, hrows, -⟩ := Table.rows_of_insert hins
      rw [hrows, List.mem_append, List.mem_singleton] at ho
      rcases ho with ho | rfl
      · exact h o ho
      · exact commandHolds_of_row rfl hrow hpos rfl

end Commands

section Operations

theorem rowsKept_of_acknowledged
    {messageId serverMessageId : Nat} {messageSeq now : Int} {s : Store}
    {t : Table MessageRow}
    (ht : (s.dedupe serverMessageId messageId).update
      (fun r => Record.rowid r == messageId)
      (MessageRow.acknowledge serverMessageId messageSeq now)
      (fun _ => rfl) = some t) :
    RowsKept MessageRow.localMessageId s.message t :=
  (rowsKept_deleteWhere s.message _).trans
    (rowsKept_of_update ht (fun _ _ _ => rfl))

theorem rowsKept_withStatus
    (s : Store) (messageId : Nat) (status now : Int) :
    RowsKept MessageRow.localMessageId s.message
      (s.withStatus messageId status now) :=
  rowsKept_modify _ _ _ _ _ (fun _ => rfl)

theorem identityStep_of_ack
    {messageId serverMessageId : Nat} {messageSeq : Int} {o : Table OutboxRow}
    {env : Env} {s s' : Store} {res : Except StoreError PUnit}
    (h : AckOutcome messageId serverMessageId messageSeq o env s res s')
    (hsub : ∀ c ∈ o.rows, c ∈ s.outbox.rows) :
    IdentityStep s s' := by
  cases h with
  | failed e he =>
      exact .refl s
  | acked row t hrow ht =>
      exact identityStep_of_subset (rowsKept_of_acknowledged ht) hsub

theorem identityStep_of_createQueued
    {input : NewMessage} {localMessageId : Nat} {commandType : String}
    {payload : List UInt8} {routeKey : Option String} {env : Env}
    {s s' : Store} {res : Except StoreError Nat}
    (h : CreateQueuedOutcome input localMessageId commandType payload routeKey
      env s res s') :
    IdentityStep s s' := by
  cases h with
  | failed e he =>
      exact .refl s
  | created t o n hpos ht ho =>
      have hkept : RowsKept MessageRow.localMessageId s.message t :=
        rowsKept_of_insert ht
      refine { rows := hkept, commands := ?_ }
      intro hcmd c hc
      obtain ⟨-, hrows, -⟩ := Table.rows_of_insert ho
      rw [hrows, List.mem_append, List.mem_singleton] at hc
      rcases hc with hc | rfl
      · exact (hcmd c hc).of_rowsKept hkept
      · have hrow : t.byRowid s.message.nextRowid =
            some (input.toRow localMessageId 1 env.now s.message.nextRowid) := by
          rw [Table.byRowid_of_append (fun _ => rfl)
            (Table.rows_of_insert ht).2.1, if_pos rfl]
        exact commandHolds_of_row rfl hrow hpos rfl

/-- Marking a message keeps its row, so its command fits the marked row. -/
theorem identityStep_of_enqueued
    {commandType : String} {messageId channelId : Nat} {payload : List UInt8}
    {routeKey : Option String} {now : Int} {s : Store} {o : Table OutboxRow}
    {row : MessageRow} {f : MessageRow → MessageRow} {hid hkeys}
    (hf : ∀ r, (f r).localMessageId = r.localMessageId)
    (hrow : s.message.byRowid messageId = some row)
    (hpos : 0 < row.localMessageId)
    (ho : OutboxUpserted (.msg row.localMessageId) commandType messageId
      channelId payload routeKey now s.outbox o) :
    IdentityStep s
      { s with
        message := s.message.modify (fun r => r.id == messageId) f hid hkeys
        outbox := o } := by
  have hkept : RowsKept MessageRow.localMessageId s.message
      (s.message.modify (fun r => r.id == messageId) f hid hkeys) :=
    rowsKept_modify _ _ _ _ _ hf
  have hid' : row.id = messageId :=
    ((s.message.byRowid_eq_some_iff _ _).mp hrow).2
  have hmarked : (s.message.modify (fun r => r.id == messageId) f hid
      hkeys).byRowid messageId = some (f row) := by
    rw [Table.byRowid_modify, hrow]
    simp [hid']
  refine { rows := hkept, commands := ?_ }
  intro hcmd
  rw [← hf row] at hpos ho
  exact commandHolds_of_upserted hmarked hpos ho
    (fun c hc => (hcmd c hc).of_rowsKept hkept)

/-- Every other operation keeps local ids and makes commands from them. -/
theorem identityStep_exec
    {op : StoreOp} (hop : op.isUpsert = false) (env : Env) (s : Store) :
    IdentityStep s (op.exec env s).2 := by
  by_cases hcontent : op.contentOnly = true
  · have hstep : ContentStep s (op.exec env s).2 :=
      contentStep_of_contentOnly hcontent env s
    exact identityStep_of_subset
      (hstep.rowsKept (fun r r' h => congrArg MessageIdentity.localMessageId h))
      (by simp [hstep.outbox])
  · cases hrun : op.exec env s with
    | mk res s' =>
    cases op with
    | createLocalMessage input localMessageId =>
        obtain ⟨res₀, hx, -⟩ := withEffect_run hrun
        cases res₀ with
        | ok n =>
            obtain ⟨t, ht, rfl⟩ := insertMessage_ok hx
            exact identityStep_of_subset (rowsKept_of_insert ht)
              (fun _ h => h)
        | error e =>
            rw [(insertMessage_error hx).1]
            exact .refl s
    | createLocalMessageQueued =>
        obtain ⟨res₀, hx, -⟩ := withEffect_run hrun
        exact identityStep_of_createQueued (createLocalMessageQueued_outcome hx)
    | outboxEnqueue =>
        obtain ⟨res₀, hx, -⟩ := withEffect_run hrun
        cases outboxEnqueue_outcome hx with
        | failed e => exact .refl s
        | enqueued row o hrow hpos ho =>
            exact identityStep_of_enqueued (fun _ => rfl) hrow hpos ho
    | finalizeAttachmentAndEnqueue =>
        obtain ⟨res₀, hx, -⟩ := withEffect_run hrun
        cases finalizeAttachmentAndEnqueue_outcome hx with
        | failed e => exact .refl s
        | enqueued row o hrow hpos ho =>
            exact identityStep_of_enqueued (fun _ => rfl) hrow hpos ho
    | outboxAckSent =>
        obtain ⟨res₀, hx, -⟩ := withEffect_run hrun
        exact identityStep_of_ack (outboxAckSent_outcome hx)
          (fun _ => mem_withoutCommand)
    | markMessageSent =>
        obtain ⟨res₀, hx, -⟩ := withEffect_run hrun
        exact identityStep_of_ack (markMessageSent_outcome hx) (fun _ h => h)
    | outboxReconcileSent =>
        obtain ⟨res₀, hx, -⟩ := withEffect_run hrun
        cases outboxReconcileSent_outcome hx with
        | failed e he => exact .refl s
        | reconciled t ht =>
            exact identityStep_of_subset
              (rowsKept_of_update ht (fun _ _ _ => rfl))
              (fun _ => mem_withoutCommand)
    | outboxBumpRetry =>
        obtain ⟨res₀, hx, -⟩ := withEffect_run hrun
        rcases outboxBumpRetry_cases hx with ⟨e, -, rfl⟩ | ⟨-, rfl⟩
        · exact .refl _
        · refine { rows := .refl _, commands := ?_ }
          intro hcmd o ho
          rw [Store.retried, Table.mem_modify] at ho
          obtain ⟨o₀, ho₀, rfl⟩ := ho
          split
          · exact (hcmd o₀ ho₀).congr rfl rfl
          · exact hcmd o₀ ho₀
    | outboxReject =>
        obtain ⟨res₀, hx, -⟩ := withEffect_run hrun
        rcases outboxReject_cases hx with ⟨e, -, rfl⟩ | ⟨-, rfl⟩
        · exact .refl _
        · exact identityStep_of_subset (rowsKept_withStatus _ _ _ _)
            (fun _ => mem_withoutCommand)
    | outboxDrop =>
        obtain ⟨res₀, hx, -⟩ := withEffect_run hrun
        rcases outboxDrop_cases hx with ⟨e, -, rfl⟩ | ⟨-, rfl⟩
        · exact .refl _
        · exact identityStep_of_subset (.refl _) (fun _ => mem_withoutCommand)
    | updateMessageStatus =>
        obtain ⟨res₀, hx, -⟩ := withEffect_run hrun
        rcases updateMessageStatus_cases hx with ⟨e, -, rfl⟩ | ⟨-, rfl⟩
        · exact .refl _
        · exact identityStep_of_subset (rowsKept_withStatus _ _ _ _)
            (fun _ h => h)
    | deleteMessageLocal =>
        obtain ⟨res₀, hx, -⟩ := withEffect_run hrun
        rcases deleteMessageLocal_cases hx with ⟨rfl, -⟩ | ⟨stored, -, -, rfl⟩
        · exact .refl _
        · exact identityStep_of_subset (rowsKept_deleteWhere _ _)
            (fun _ h => h)
    | deleteChannelLocal =>
        obtain ⟨res₀, hx, -⟩ := withEffect_run hrun
        rcases deleteChannelLocal_cases hx with ⟨rfl, -⟩ | ⟨-, rfl⟩
        · exact .refl _
        · exact identityStep_of_subset (rowsKept_deleteWhere _ _)
            (fun _ h => h)
    | upsertRemoteMessage => cases hop
    | batchUpsertRemoteMessages => cases hop
    | _ => exact absurd rfl hcontent

end Operations

section Upserts

/--
The upsert leaves alone the local id of a row that one of the commands waits
for: the condition that history, which carries no local id, does not meet.
-/
def KeepsLocalId
    (commands : List OutboxRow) (currentUid : Option Nat)
    (s : Store) (input : UpsertRemoteMessageInput) : Prop :=
  ∀ base row, 0 < input.serverMessageId →
    UpsertTarget currentUid input s base row →
      (∃ o ∈ commands, o.messageId = some row.id) →
        input.localMessageId = row.localMessageId

/-- An echo that names its row by the local id keeps that id. -/
theorem keepsLocalId_of_echo
    {commands : List OutboxRow} {currentUid : Option Nat} {s : Store}
    {input : UpsertRemoteMessageInput} {row : MessageRow}
    (hlocal : s.byInputLocalId currentUid input = some row) :
    KeepsLocalId commands currentUid s input := by
  intro base target hpos htarget _
  have hmem := Store.mem_of_byInputLocalId hlocal
  cases htarget with
  | byServerId _ hrow hfresh hsame =>
      have hid : row.id = target.id := hsame row hlocal
      have htgt := ((s.byServerId_eq_some_iff hpos target).mp hrow).1
      have heq : row = target := s.message.rowid_inj hmem.1 htgt hid
      rw [← heq]
      exact hmem.2.2.1.symm
  | byLocalId _ hnone hrow hfresh =>
      exact (Store.mem_of_byInputLocalId hrow).2.2.1.symm
  | merge drop _ hdrop hfresh hkeep hne =>
      exact (Store.mem_of_byInputLocalId hkeep).2.2.1.symm

theorem CommandHolds.of_upsert
    {commands : List OutboxRow} {currentUid : Option Nat} {s : Store}
    {input : UpsertRemoteMessageInput} {now : Int} {t : Table MessageRow}
    {o : OutboxRow} (ho : o ∈ commands)
    (h : CommandHolds s.message o)
    (hkeeps : KeepsLocalId commands currentUid s input)
    (ht : UpsertedMessages currentUid input now s t) :
    CommandHolds t o := by
  intro m hm
  obtain ⟨hlt, n, hcmd, hpos, hrow⟩ := h m hm
  refine ⟨Nat.lt_of_lt_of_le hlt ht.nextRowid_le, n, hcmd, hpos, ?_⟩
  intro row' hrow'
  rcases ht.row_cases hrow' with
    hold | ⟨base, row, hsid, htarget, rfl, hold, rfl⟩ | ⟨rfl, -⟩
  · exact hrow row' hold
  · exact (hkeeps base row hsid htarget ⟨o, ho, hm⟩).trans (hrow row hold)
  · exact absurd hlt (Nat.lt_irrefl _)

/-- One upsert of a batch keeps the outbox and the commands. -/
theorem commandHolds_afterUpsert
    (env : Env) {outbox : Table OutboxRow} {commands : List OutboxRow}
    {currentUid : Option Nat} {s : Store}
    {input : UpsertRemoteMessageInput}
    (h : s.outbox = outbox ∧ ∀ o ∈ commands, CommandHolds s.message o)
    (hkeeps : KeepsLocalId commands currentUid s input) :
    (s.afterUpsert currentUid env input).outbox = outbox ∧
      ∀ o ∈ commands,
        CommandHolds (s.afterUpsert currentUid env input).message o := by
  cases hrun : upsertRemoteMessageWithResult currentUid input env s with
  | mk res s' =>
  obtain ⟨ht, hout, -⟩ := upsert_messages hrun
  have hafter : s.afterUpsert currentUid env input = s' := by
    simp [Store.afterUpsert, Exec.after, hrun]
  rw [hafter]
  exact ⟨hout.trans h.1, fun o ho => (h.2 o ho).of_upsert ho hkeeps ht⟩

end Upserts

section Runs

/-- The commands that an attempt can still be built for. -/
def Client.commands (c : Client) : List OutboxRow :=
  c.batch ++ c.store.outbox.rows

/-- The event overwrites no local id that a command waits for. -/
def Client.KeepsIdentity (c : Client) : Env × ClientEvent → Prop
  | (_, .op (.upsertRemoteMessage currentUid input)) =>
      KeepsLocalId c.commands currentUid c.store input
  | (env, .op (.batchUpsertRemoteMessages currentUid inputs)) =>
      EventRun.Guarded (Store.afterUpsert currentUid env)
        (KeepsLocalId c.commands currentUid) c.store inputs
  | _ => True

/-- Every command carries the local id of its row, and so did every attempt. -/
structure IdentityInv (c : Client) : Prop where
  outbox : ∀ o ∈ c.store.outbox.rows, CommandHolds c.store.message o
  batch : ∀ o ∈ c.batch, CommandHolds c.store.message o
  attempts : ∀ a ∈ c.attempts, a.commandId = .msg a.localMessageId

theorem identityInv_start : IdentityInv Client.start where
  outbox := by simp [Client.start, Store.empty]
  batch := by simp [Client.start]
  attempts := by simp [Client.start]

theorem IdentityInv.commands
    {c : Client} (h : IdentityInv c) :
    ∀ o ∈ c.commands, CommandHolds c.store.message o := by
  intro o ho
  rcases List.mem_append.mp ho with ho | ho
  · exact h.batch o ho
  · exact h.outbox o ho

/-- A store operation keeps the invariant when it is guarded. -/
theorem IdentityInv.runOp
    {c : Client} (h : IdentityInv c) {env : Env} {op : StoreOp}
    (hok : c.KeepsIdentity (env, .op op)) :
    IdentityInv (c.runOp env op) := by
  have hstore : (∀ o ∈ (op.exec env c.store).2.outbox.rows,
        CommandHolds (op.exec env c.store).2.message o) ∧
      ∀ o ∈ c.batch, CommandHolds (op.exec env c.store).2.message o := by
    by_cases hop : op.isUpsert = false
    · have hstep := identityStep_exec hop env c.store
      exact ⟨hstep.commands h.outbox,
        fun o ho => (h.batch o ho).of_rowsKept hstep.rows⟩
    cases op with
    | upsertRemoteMessage currentUid input =>
        simp only [StoreOp.exec, withEffect_after]
        obtain ⟨hout, hcmd⟩ :=
          commandHolds_afterUpsert env ⟨rfl, h.commands⟩ hok
        unfold Store.afterUpsert at hout hcmd
        rw [hout]
        exact ⟨fun o ho => hcmd o (List.mem_append_right _ ho),
          fun o ho => hcmd o (List.mem_append_left _ ho)⟩
    | batchUpsertRemoteMessages currentUid inputs =>
        simp only [StoreOp.exec, withEffect_after, after_batchUpsert]
        obtain ⟨hout, hcmd⟩ := EventRun.Guarded.invariant
          (fun s => s.outbox = c.store.outbox ∧
            ∀ o ∈ c.commands, CommandHolds s.message o)
          (fun s input hs hkeeps => commandHolds_afterUpsert env hs hkeeps)
          ⟨rfl, h.commands⟩ hok
        rw [hout]
        exact ⟨fun o ho => hcmd o (List.mem_append_right _ ho),
          fun o ho => hcmd o (List.mem_append_left _ ho)⟩
    | _ => exact absurd rfl hop
  exact
    { outbox := by simpa [Client.runOp] using hstore.1
      batch := by simpa [Client.runOp] using hstore.2
      attempts := by simpa [Client.runOp] using h.attempts }

/-- Taking the next command keeps the invariant: its row has the local id. -/
theorem IdentityInv.sendNext
    {c : Client} (h : IdentityInv c) (env : Env) (fresh : Nat) :
    IdentityInv (c.sendNext env fresh) := by
  unfold Client.sendNext
  split
  · exact h
  · rename_i command rest hbatch
    have hrest : ∀ o ∈ rest, CommandHolds c.store.message o :=
      fun o ho => h.batch o (by simp [hbatch, ho])
    split
    · exact { outbox := h.outbox, batch := hrest, attempts := h.attempts }
    · rename_i messageId hmsg
      obtain ⟨hlt, n, hcmd, hpos, hrow⟩ :=
        h.batch command (by simp [hbatch]) messageId hmsg
      cases hrun : prepareSend command messageId fresh env c.store with
      | mk res s' =>
      cases prepareSend_outcome hrun with
      | failed e =>
          exact { outbox := h.outbox, batch := hrest, attempts := h.attempts }
      | undropped hgone =>
          exact { outbox := h.outbox, batch := hrest, attempts := h.attempts }
      | dropped hgone =>
          exact
            { outbox := fun o ho => h.outbox o (mem_withoutCommand ho)
              batch := hrest
              attempts := h.attempts }
      | identified row hfound hrowpos =>
          refine { outbox := h.outbox, batch := hrest, attempts := ?_ }
          intro a ha
          rcases List.mem_cons.mp ha with rfl | ha
          · exact hcmd.trans (by rw [hrow row hfound])
          · exact h.attempts a ha
      | numbered row hfound hzero =>
          -- the row of a command never has the local id zero
          have := hrow row hfound
          omega

theorem IdentityInv.step
    {c : Client} (h : IdentityInv c) {event : Env × ClientEvent}
    (hok : c.KeepsIdentity event) :
    IdentityInv (c.step event) := by
  obtain ⟨env, event⟩ := event
  cases event with
  | op op =>
      exact h.runOp hok
  | peek commandType limit =>
      unfold Client.step
      dsimp only
      split
      · rename_i commands hpeek
        have hmem := outboxPeek_mem (Prod.ext hpeek rfl)
        exact
          { outbox := h.outbox
            batch := fun o ho => h.outbox o (hmem o ho)
            attempts := h.attempts }
      · exact h
  | sendNext fresh =>
      exact h.sendNext env fresh
  | stopDrain =>
      exact
        { outbox := h.outbox
          batch := fun o ho => by cases ho
          attempts := h.attempts }

/--
In every run whose upserts leave alone the local ids that commands wait for,
every attempt of a command carries the local id the command was made from, so
the attempts of one command carry the same.
-/
theorem attempts_keep_identity
    {events : List (Env × ClientEvent)}
    (h : EventRun.Guarded Client.step Client.KeepsIdentity Client.start
      events) :
    let c := EventRun.run Client.step Client.start events
    (∀ a ∈ c.attempts, a.commandId = .msg a.localMessageId) ∧
      ∀ a ∈ c.attempts, ∀ b ∈ c.attempts,
        a.commandId = b.commandId → a.localMessageId = b.localMessageId := by
  have hinv := EventRun.Guarded.invariant IdentityInv
    (fun _ _ hc hok => hc.step hok) identityInv_start h
  refine ⟨hinv.attempts, ?_⟩
  intro a ha b hb hab
  rw [hinv.attempts a ha, hinv.attempts b hb] at hab
  exact CommandId.msg.inj hab

/-- A message is queued, sent once without an answer, and its echo arrives. -/
def lostResponse : List (Env × ClientEvent) :=
  [ (.calm 1000, .op (.createLocalMessageQueued
      (.text 10 1 "hello") 7 "message" [] none)),
    (.calm 1001, .peek "message" 20),
    (.calm 1001, .sendNext 50),
    (.calm 1002, .op (.outboxBumpRetry 1 1100 "timeout")),
    (.calm 1003, .op (.upsertRemoteMessage (some 1)
      (.text 900 7 10 1 5 "hello"))) ]

/-- The retry of that message. -/
def retryLater : List (Env × ClientEvent) :=
  [ (.calm 1200, .peek "message" 20),
    (.calm 1200, .sendNext 51) ]

/-- A history page with the message; history carries no local id. -/
def historyPage : Env × ClientEvent :=
  (.calm 1010, .op (.batchUpsertRemoteMessages (some 1)
    [.text 900 0 10 1 5 "hello"]))

/-- The retry after an echo carries the same local id. -/
theorem attempts_keep_identity_after_echo :
    (EventRun.run Client.step Client.start
        (lostResponse ++ retryLater)).attempts =
      [⟨.msg 7, 1, 7⟩, ⟨.msg 7, 1, 7⟩] ∧
    ∀ a ∈ (EventRun.run Client.step Client.start
        (lostResponse ++ retryLater)).attempts,
      a.commandId = .msg a.localMessageId := by
  refine ⟨by decide, (attempts_keep_identity ?_).1⟩
  refine ⟨trivial, trivial, trivial, trivial, ?_, trivial, trivial, trivial⟩
  exact keepsLocalId_of_echo rfl

/-- With a history page in between, the retry carries a new local id. -/
theorem attempts_change_identity :
    ¬ ∀ events : List (Env × ClientEvent),
      ∀ a ∈ (EventRun.run Client.step Client.start events).attempts,
      ∀ b ∈ (EventRun.run Client.step Client.start events).attempts,
        a.commandId = b.commandId → a.localMessageId = b.localMessageId := by
  intro h
  have hrun : (EventRun.run Client.step Client.start
      (lostResponse ++ historyPage :: retryLater)).attempts =
        [⟨.msg 7, 1, 51⟩, ⟨.msg 7, 1, 7⟩] := by decide
  have hsame := h (lostResponse ++ historyPage :: retryLater)
  rw [hrun] at hsame
  exact absurd (hsame ⟨.msg 7, 1, 51⟩ (by simp) ⟨.msg 7, 1, 7⟩ (by simp) rfl)
    (by decide)

end Runs

end PrivchatSdk
