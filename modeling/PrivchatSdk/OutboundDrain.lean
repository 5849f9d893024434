import PrivchatSdk.Outbound

/-!
# Passes over the outbound queues

A pass drains the queue of normal messages and then the queue of attachments.
A loop goes on to the next command, breaks, or returns an error; after an error
of the normal queue the pass does not reach the attachments.

`turnEffect_drainCommand` says once what a command's turn does: it touches the
command's own rows, as its recorded outcome tells.  Two results follow for runs
of passes.  What a queue shows of a message is the fold of the message's own
outcomes (`shown_run`).  And a pass that is not stalled takes another command
off the outbox (`others_lt_of_not_stalls`), so a command that never gets through
holds the others up exactly while it stalls (`stuck_command_lets_others_pass`).

A command is at the head of the normal queue for ever when its request cannot
be built: the loop returns before it notes a retry (`unbuildable_head_blocks`).
-/

namespace PrivchatSdk

open StatementExec RelTable EventRun

section Model

/-- The queues; both are commands of the table `outbox`. -/
inductive QueueKind where
  | normal
  | attachment
  deriving DecidableEq, Repr

def QueueKind.commandType : QueueKind → String
  | .normal => "message"
  | .attachment => "attachment"

/--
How the send of a request ends.  For an attachment a failure may also come from
the upload before it.
-/
inductive SendResult where
  | accepted (serverMessageId : Nat) (messageSeq : Int)
  | failed (retryable : Bool)
  deriving DecidableEq, Repr

/-- What a pass meets: clocks and failures, and how the sends end. -/
structure DrainPass where
  peekEnv : QueueKind → Env
  commandEnv : Nat → Env
  fresh : Nat → Nat
  /-- The payload of the message can be encoded. -/
  encodes : Nat → Bool
  sendResult : Nat → SendResult
  errorText : Nat → String

/-- `u32::try_from(message.message_type)`. -/
def typeFits (messageType : Int) : Bool :=
  decide (0 ≤ messageType) && decide (messageType < 4294967296)

/-- `build_send_message_request_with_content` returns a request. -/
def DrainPass.builds (p : DrainPass) (msg : StoredMessage) : Bool :=
  typeFits msg.messageType && p.encodes msg.messageId

/-- What a turn did to the command and to the status of its message. -/
inductive Outcome where
  /-- The message was missing; the command is dropped. -/
  | missing
  | sent
  | rejected
  | retried (nextAttemptAt : Int)
  /-- Nothing was written. -/
  | unwritten
  deriving DecidableEq, Repr

/-- How the loop goes on. -/
inductive LoopExit where
  | next
  | stop
  | fail
  deriving DecidableEq, Repr

/-- `outbox_next_attempt_at`: 1 s, 2 s, 4 s, 8 s, 16 s. -/
def outboxNextAttemptAt (retryCount : Int) : StoreM Int := do
  let now ← nowMs
  pure (now + 1000 * 2 ^ (max 0 (min retryCount 4)).toNat)

/-- Note a retry; that the note fails is only logged. -/
def noteRetry (p : DrainPass) (messageId : Nat) (retryCount : Int) :
    StoreM Outcome := do
  let nextAt ← outboxNextAttemptAt retryCount
  let noted ← (outboxBumpRetry messageId nextAt (p.errorText messageId)).attempt
  match noted with
  | .ok _ => pure (.retried nextAt)
  | .error _ => pure .unwritten

/-- The server accepted: acknowledge, or note a retry and return the error. -/
def commitAccepted
    (p : DrainPass) (messageId : Nat) (retryCount : Int)
    (serverMessageId : Nat) (messageSeq : Int) :
    StoreM (Outcome × LoopExit) := do
  let acked ← (outboxAckSent messageId serverMessageId messageSeq).attempt
  match acked with
  | .ok _ => pure (.sent, .next)
  | .error _ => do
      let outcome ← noteRetry p messageId retryCount
      pure (outcome, .fail)

/-- `await_server_message_id`: poll the row for a server id. -/
def awaitServerMessageId (messageId : Nat) : Nat → StoreM (Option Nat)
  | 0 => pure none
  | attempts + 1 => do
      let latest ← (getMessageById messageId).attempt
      match latest with
      | .ok (some msg) =>
          match msg.serverMessageId with
          | some serverMessageId => pure (some serverMessageId)
          | none => awaitServerMessageId messageId attempts
      | _ => awaitServerMessageId messageId attempts

/-- The send failed: reconcile, defer, or reject. -/
def settleFailed
    (p : DrainPass) (messageId : Nat) (retryCount : Int) (retryable : Bool) :
    StoreM (Outcome × LoopExit) := do
  let landed ← awaitServerMessageId messageId 12
  match landed with
  | some serverMessageId => do
      let reconciled ← (outboxReconcileSent messageId serverMessageId).attempt
      match reconciled with
      | .ok _ => pure (.sent, .next)
      | .error _ => pure (.unwritten, .stop)
  | none =>
      if retryable then do
        let outcome ← noteRetry p messageId retryCount
        pure (outcome, .stop)
      else do
        let refused ← (outboxReject messageId 3).attempt
        match refused with
        | .ok _ => pure (.rejected, .next)
        | .error _ => pure (.unwritten, .stop)

/--
Send a stored message.  In the normal queue the error of the builder leaves the
loop through `?`; in the attachment queue it is an error of
`process_outbound_file`, which is not retryable.
-/
def sendStored
    (kind : QueueKind) (p : DrainPass) (msg : StoredMessage)
    (messageId : Nat) (retryCount : Int) : StoreM (Outcome × LoopExit) :=
  match kind, p.builds msg, p.sendResult messageId with
  | .normal, false, _ => pure (.unwritten, .fail)
  | .attachment, false, .accepted _ _ =>
      settleFailed p messageId retryCount false
  | _, true, .accepted serverMessageId messageSeq =>
      commitAccepted p messageId retryCount serverMessageId messageSeq
  | _, _, .failed retryable =>
      settleFailed p messageId retryCount retryable

/-- One turn of the loop; an error of its two reads leaves it through `?`. -/
def drainCommand
    (kind : QueueKind) (p : DrainPass) (messageId : Nat) (retryCount : Int) :
    StoreM (Outcome × LoopExit) := do
  let found ← getMessageById messageId
  match found with
  | none => do
      let dropped ← (outboxDrop messageId).attempt
      match dropped with
      | .ok _ => pure (.missing, .next)
      | .error _ => pure (.unwritten, .next)
  | some msg => do
      let _ ← ensureLocalMessageId messageId (p.fresh messageId)
      sendStored kind p msg messageId retryCount

/-- A turn that came to its end, for the record. -/
structure Turn where
  messageId : Nat
  outcome : Outcome
  deriving DecidableEq, Repr

/-- The store, and the turns taken, newest first. -/
structure Drain where
  store : Store
  turns : List Turn

/-- The loop over the peeked commands; the flag is false after an error. -/
def drainItems (kind : QueueKind) (p : DrainPass) :
    List OutboxRow → Drain → Bool × Drain
  | [], d => (true, d)
  | item :: rest, d =>
      match item.messageId with
      | none => drainItems kind p rest d
      | some messageId =>
          match drainCommand kind p messageId item.retryCount
              (p.commandEnv messageId) d.store with
          | (.error _, s) => (false, { d with store := s })
          | (.ok (outcome, exit), s) =>
              match exit with
              | .next => drainItems kind p rest ⟨s, ⟨messageId, outcome⟩ :: d.turns⟩
              | .stop => (true, ⟨s, ⟨messageId, outcome⟩ :: d.turns⟩)
              | .fail => (false, ⟨s, ⟨messageId, outcome⟩ :: d.turns⟩)

/-- Peek a queue and drain what is due. -/
def drainQueueOnce
    (kind : QueueKind) (limit : Nat) (p : DrainPass) (d : Drain) : Bool × Drain :=
  match outboxPeek kind.commandType limit (p.peekEnv kind).now
      (p.peekEnv kind) d.store with
  | (.ok items, _) => drainItems kind p items d
  | (.error _, _) => (false, d)

/-- `drain_normal_queue_once`. -/
def drainNormalQueueOnce (limit : Nat) (p : DrainPass) (d : Drain) : Bool × Drain :=
  drainQueueOnce .normal limit p d

/-- `drain_attachment_outbox_once`. -/
def drainAttachmentOutboxOnce (limit : Nat) (p : DrainPass) (d : Drain) :
    Bool × Drain :=
  drainQueueOnce .attachment limit p d

/-- `OUTBOUND_DRAIN_BATCH_SIZE`. -/
def outboundDrainBatchSize : Nat := 20

/-- `drain_outbound_queues`. -/
def drainOutboundQueues (d : Drain) (p : DrainPass) : Drain :=
  match drainNormalQueueOnce outboundDrainBatchSize p d with
  | (false, d') => d'
  | (true, d') => (drainAttachmentOutboxOnce outboundDrainBatchSize p d').2

end Model

section Turns

/--
The status of row `m` is marked, the other rows keep theirs, no row is new, and
no message type changes.
-/
def StatusMarked (m : Nat) (mark : Int → Int) (t t' : Table MessageRow) : Prop :=
  ∀ n row', t'.byRowid n = some row' →
    ∃ row, t.byRowid n = some row ∧ row'.messageType = row.messageType ∧
      row'.status = if n = m then mark row.status else row.status

theorem StatusMarked.refl (m : Nat) (t : Table MessageRow) :
    StatusMarked m id t t := by
  intro n row' hrow'
  exact ⟨row', hrow', rfl, by simp⟩

/-- Writes before the marking one leave every status. -/
theorem StatusMarked.after
    {m : Nat} {mark : Int → Int} {t u v : Table MessageRow}
    (h : StatusMarked m id t u) (h' : StatusMarked m mark u v) :
    StatusMarked m mark t v := by
  intro n row'' hrow''
  obtain ⟨row', hrow', htype', hstatus'⟩ := h' n row'' hrow''
  obtain ⟨row, hrow, htype, hstatus⟩ := h n row' hrow'
  refine ⟨row, hrow, htype'.trans htype, ?_⟩
  have hkept : row'.status = row.status := by simpa using hstatus
  rw [hstatus', hkept]

theorem statusMarked_deleteWhere
    (m : Nat) (t : Table MessageRow) (p : MessageRow → Bool) :
    StatusMarked m id t (t.deleteWhere p) := by
  intro n row' hrow'
  rw [Table.byRowid_deleteWhere, Option.filter_eq_some_iff] at hrow'
  exact ⟨row', hrow'.1, rfl, by simp⟩

theorem statusMarked_of_updatedRows
    {m : Nat} {mark : Int → Int} {t t' : Table MessageRow}
    {f : MessageRow → MessageRow}
    (hid : ∀ r, Record.rowid (f r) = Record.rowid r)
    (hrows : t'.rows = t.updatedRows (fun r => r.id == m) f)
    (htype : ∀ r, (f r).messageType = r.messageType)
    (hmark : ∀ r, (f r).status = mark r.status) :
    StatusMarked m mark t t' := by
  intro n row' hrow'
  rw [Table.byRowid_of_updatedRows hid hrows, Option.map_eq_some_iff] at hrow'
  obtain ⟨row, hrow, rfl⟩ := hrow'
  have hrid : row.id = n := ((t.byRowid_eq_some_iff _ _).mp hrow).2
  refine ⟨row, hrow, ?_⟩
  by_cases hn : n = m
  · simp [hrid, hn, htype, hmark]
  · simp [hrid, hn]

/-- What the outcome leaves of the status. -/
def Outcome.mark : Outcome → Int → Int
  | .sent => fun _ => 2
  | .rejected => fun _ => 3
  | _ => id

/-- What the outcome leaves of the outbox. -/
def Outcome.outbox
    (m : Nat) (text : String) (now : Int) (o : Table OutboxRow) :
    Outcome → Table OutboxRow
  | .missing | .sent | .rejected => o.deleteWhere (fun c => c.messageId == some m)
  | .retried nextAttemptAt =>
      o.modify (fun c => c.messageId == some m)
        (fun c => { c with
          retryCount := c.retryCount + 1
          nextAttemptAt := nextAttemptAt
          lastError := some text
          updatedAt := now })
        (fun _ => rfl) (fun _ => rfl)
  | .unwritten => o

/-- The turn of message `m` did to the store what its outcome says. -/
structure TurnEffect
    (m : Nat) (text : String) (now : Int) (outcome : Outcome) (s s' : Store) :
    Prop where
  outbox : s'.outbox = outcome.outbox m text now s.outbox
  message : StatusMarked m outcome.mark s.message s'.message

theorem TurnEffect.refl (m : Nat) (text : String) (now : Int) (s : Store) :
    TurnEffect m text now .unwritten s s where
  outbox := rfl
  message := .refl m s.message

theorem TurnEffect.after
    {m : Nat} {text : String} {now : Int} {outcome : Outcome} {s t u : Store}
    (h : TurnEffect m text now .unwritten s t) (h' : TurnEffect m text now outcome t u) :
    TurnEffect m text now outcome s u where
  outbox := by
    rw [h'.outbox, h.outbox]
    rfl
  message := h.message.after h'.message

/-- The part ends with an outcome, and has done what the outcome says. -/
def Settles (p : DrainPass) (m : Nat) (x : StoreM (Outcome × LoopExit)) : Prop :=
  ∀ env s, ∃ outcome exit s',
    x env s = (.ok (outcome, exit), s') ∧
      TurnEffect m (p.errorText m) env.now outcome s s'

/-- A retry is noted at the command, or it could not be written. -/
theorem noteRetry_cases
    (p : DrainPass) (m : Nat) (retryCount : Int) (env : Env) (s : Store) :
    noteRetry p m retryCount env s = (.ok .unwritten, s) ∨
      ∃ nextAttemptAt, noteRetry p m retryCount env s =
        (.ok (.retried nextAttemptAt),
          { s with
            outbox := s.retried m nextAttemptAt (p.errorText m) env.now }) := by
  have hnote : noteRetry p m retryCount env s =
      ((outboxBumpRetry m
        (env.now + 1000 * 2 ^ (max 0 (min retryCount 4)).toNat)
        (p.errorText m)).attempt >>= fun noted =>
          match noted with
          | .ok _ => (pure (.retried
              (env.now + 1000 * 2 ^ (max 0 (min retryCount 4)).toNat)) :
                StoreM Outcome)
          | .error _ => pure .unwritten) env s := rfl
  rw [hnote, Exec.attempt_bind]
  cases hrun : outboxBumpRetry m
      (env.now + 1000 * 2 ^ (max 0 (min retryCount 4)).toNat) (p.errorText m)
      env s with
  | mk res s' =>
  rcases outboxBumpRetry_cases hrun with ⟨e, rfl, rfl⟩ | ⟨rfl, rfl⟩
  · exact Or.inl rfl
  · exact Or.inr ⟨_, rfl⟩

theorem noteRetry_settles
    (p : DrainPass) (m : Nat) (retryCount : Int) (env : Env) (s : Store) :
    ∃ outcome s', noteRetry p m retryCount env s = (.ok outcome, s') ∧
      TurnEffect m (p.errorText m) env.now outcome s s' := by
  rcases noteRetry_cases p m retryCount env s with hnote | ⟨nextAttemptAt, hnote⟩
  · exact ⟨.unwritten, s, hnote, .refl ..⟩
  · exact ⟨.retried nextAttemptAt, _, hnote, rfl, .refl m s.message⟩

theorem commitAccepted_settles
    (p : DrainPass) (m : Nat) (retryCount : Int) (serverMessageId : Nat)
    (messageSeq : Int) :
    Settles p m (commitAccepted p m retryCount serverMessageId messageSeq) := by
  intro env s
  unfold commitAccepted
  rw [Exec.attempt_bind]
  cases hrun : outboxAckSent m serverMessageId messageSeq env s with
  | mk res s' =>
  cases outboxAckSent_outcome hrun with
  | failed e =>
      obtain ⟨outcome, s₁, hnote, htouch⟩ :=
        noteRetry_settles p m retryCount env s
      exact ⟨outcome, .fail, s₁, Exec.bind_ok.mpr ⟨outcome, s₁, hnote, rfl⟩,
        htouch⟩
  | acked row t hrow ht =>
      have hmarked : StatusMarked m Outcome.sent.mark
          (s.dedupe serverMessageId m) t :=
        statusMarked_of_updatedRows
          (f := MessageRow.acknowledge serverMessageId messageSeq env.now)
          (fun _ => rfl)
          (Table.rows_of_update ht).1 (fun _ => rfl) (fun _ => rfl)
      exact ⟨.sent, .next, _, rfl, rfl,
        (statusMarked_deleteWhere m s.message _).after hmarked⟩

/-- Polling reads the server id off the row, and changes nothing. -/
theorem awaitServerMessageId_run
    (m : Nat) (attempts : Nat) (env : Env) (s : Store) :
    ∃ landed, awaitServerMessageId m attempts env s = (.ok landed, s) ∧
      ∀ sid, landed = some sid →
        ∃ row, s.message.byRowid m = some row ∧ row.serverMessageId = some sid := by
  induction attempts with
  | zero =>
      exact ⟨none, rfl, by simp⟩
  | succ attempts ih =>
      unfold awaitServerMessageId
      rw [Exec.attempt_bind]
      cases hrun : getMessageById m env s with
      | mk res s' =>
      cases res with
      | error e =>
          cases (query_error hrun).1
          exact ih
      | ok found =>
          obtain ⟨-, hfound, rfl⟩ := query_ok.mp hrun
          unfold Store.storedMessage at hfound
          cases hrow : s.message.byRowid m with
          | none =>
              rw [hrow] at hfound
              subst hfound
              rw [hrow] at ih
              exact ih
          | some row =>
              rw [hrow] at hfound
              subst hfound
              cases hsid : row.serverMessageId with
              | none =>
                  rw [hrow] at ih
                  simpa [MessageRow.toStored, hsid] using ih
              | some sid =>
                  refine ⟨some sid, by simp [MessageRow.toStored, hsid], ?_⟩
                  rintro sid' ⟨⟩
                  exact ⟨row, rfl, hsid⟩

theorem settleFailed_settles
    (p : DrainPass) (m : Nat) (retryCount : Int) (retryable : Bool) :
    Settles p m (settleFailed p m retryCount retryable) := by
  intro env s
  obtain ⟨landed, hawait, -⟩ := awaitServerMessageId_run m 12 env s
  unfold settleFailed
  rw [Exec.bind_run, hawait]
  cases landed with
  | some sid =>
      dsimp only
      rw [Exec.attempt_bind]
      cases hrun : outboxReconcileSent m sid env s with
      | mk res s' =>
      cases outboxReconcileSent_outcome hrun with
      | failed e =>
          exact ⟨.unwritten, .stop, _, rfl, .refl ..⟩
      | reconciled t ht =>
          have hmarked : StatusMarked m Outcome.sent.mark s.message t :=
            statusMarked_of_updatedRows
              (f := MessageRow.reconcile sid env.now) (fun _ => rfl)
              (Table.rows_of_update ht).1 (fun _ => rfl) (fun _ => rfl)
          exact ⟨.sent, .next, _, rfl, rfl, hmarked⟩
  | none =>
      cases retryable with
      | true =>
          obtain ⟨outcome, s₁, hnote, htouch⟩ :=
            noteRetry_settles p m retryCount env s
          exact ⟨outcome, .stop, s₁, Exec.bind_ok.mpr ⟨outcome, s₁, hnote, rfl⟩,
            htouch⟩
      | false =>
          dsimp only
          rw [if_neg Bool.false_ne_true, Exec.attempt_bind]
          cases hrun : outboxReject m 3 env s with
          | mk res s' =>
          rcases outboxReject_cases hrun with ⟨e, rfl, rfl⟩ | ⟨rfl, rfl⟩
          · exact ⟨.unwritten, .stop, _, rfl, .refl ..⟩
          · have hmarked : StatusMarked m Outcome.rejected.mark s.message
                (s.withStatus m 3 env.now) :=
              statusMarked_of_updatedRows
                (f := fun r => { r with status := 3, updatedAt := env.now })
                (fun _ => rfl) rfl (fun _ => rfl) (fun _ => rfl)
            exact ⟨.rejected, .next, _, rfl, rfl, hmarked⟩

theorem sendStored_settles
    (kind : QueueKind) (p : DrainPass) (msg : StoredMessage) (m : Nat)
    (retryCount : Int) :
    Settles p m (sendStored kind p msg m retryCount) := by
  unfold sendStored
  split
  · intro env s
    exact ⟨.unwritten, .fail, s, rfl, .refl ..⟩
  · exact settleFailed_settles p m retryCount false
  · exact commitAccepted_settles p m retryCount _ _
  · exact settleFailed_settles p m retryCount _

theorem turnEffect_ensureLocalMessageId
    {m fresh n : Nat} {text : String} {env : Env} {s s' : Store}
    (h : ensureLocalMessageId m fresh env s = (.ok n, s')) :
    TurnEffect m text env.now .unwritten s s' := by
  obtain ⟨existing, s₁, hq, hrest⟩ := Exec.bind_ok.mp h
  obtain ⟨-, -, rfl⟩ := query_ok.mp hq
  split at hrest
  · cases hrest
    exact .refl ..
  · obtain ⟨u, s₂, hupd, hrest⟩ := Exec.bind_ok.mp hrest
    cases hrest
    rcases modifyExisting_cases hupd with ⟨e, he, -⟩ | ⟨-, -, rfl⟩
    · cases he
    · have hmarked : StatusMarked m Outcome.unwritten.mark s.message
          (s.numbered m fresh env.now) :=
        statusMarked_of_updatedRows
          (f := fun r => { r with localMessageId := fresh, updatedAt := env.now })
          (fun _ => rfl) rfl (fun _ => rfl) (fun _ => rfl)
      exact ⟨rfl, hmarked⟩

/-- An error of a turn comes from its two reads and changes nothing. -/
theorem drainCommand_error
    {kind : QueueKind} {p : DrainPass} {m : Nat} {retryCount : Int}
    {env : Env} {s s' : Store} {e : StoreError}
    (h : drainCommand kind p m retryCount env s = (.error e, s')) :
    s' = s := by
  unfold drainCommand at h
  rcases Exec.bind_error.mp h with hq | ⟨found, s₁, hq, hrest⟩
  · exact (query_error hq).1
  · obtain ⟨-, -, rfl⟩ := query_ok.mp hq
    cases found with
    | none =>
        dsimp only at hrest
        rw [Exec.attempt_bind] at hrest
        cases hdrop : (outboxDrop m env s).1 with
        | ok u =>
            rw [hdrop] at hrest
            cases hrest
        | error e' =>
            rw [hdrop] at hrest
            cases hrest
    | some msg =>
        rcases Exec.bind_error.mp hrest with hn | ⟨n, s₂, -, hsend⟩
        · exact ensureLocalMessageId_error hn
        · obtain ⟨outcome, exit, s₃, hrun, -⟩ :=
            sendStored_settles kind p msg m retryCount env s₂
          rw [hrun] at hsend
          cases hsend

/-- What a turn does. -/
theorem turnEffect_drainCommand
    {kind : QueueKind} {p : DrainPass} {m : Nat} {retryCount : Int}
    {env : Env} {s s' : Store} {outcome : Outcome} {exit : LoopExit}
    (h : drainCommand kind p m retryCount env s = (.ok (outcome, exit), s')) :
    TurnEffect m (p.errorText m) env.now outcome s s' := by
  unfold drainCommand at h
  obtain ⟨found, s₁, hq, hrest⟩ := Exec.bind_ok.mp h
  obtain ⟨-, -, rfl⟩ := query_ok.mp hq
  cases found with
  | none =>
      dsimp only at hrest
      rw [Exec.attempt_bind] at hrest
      cases hdrop : outboxDrop m env s with
      | mk res s₂ =>
      rw [hdrop] at hrest
      rcases outboxDrop_cases hdrop with ⟨e, rfl, rfl⟩ | ⟨rfl, rfl⟩
      · cases hrest
        exact .refl ..
      · cases hrest
        exact ⟨rfl, .refl m s.message⟩
  | some msg =>
      obtain ⟨n, s₂, hn, hsend⟩ := Exec.bind_ok.mp hrest
      obtain ⟨outcome', exit', s₃, hrun, htouch⟩ :=
        sendStored_settles kind p msg m retryCount env s₂
      rw [hrun] at hsend
      cases hsend
      exact (turnEffect_ensureLocalMessageId hn).after htouch

end Turns

section Reflects

/-- What the outbox shows of a command: its status and its next attempt. -/
def OutboxRow.schedule (c : OutboxRow) : String × Int × Int :=
  (c.status, c.retryCount, c.nextAttemptAt)

/-- What the outbox shows of a message. -/
def schedules (o : Table OutboxRow) (m : Nat) : List (String × Int × Int) :=
  (o.rows.filter (fun c => c.messageId == some m)).map OutboxRow.schedule

/-- What an outcome makes of a schedule. -/
def Outcome.reschedule :
    Outcome → List (String × Int × Int) → List (String × Int × Int)
  | .missing | .sent | .rejected => fun _ => []
  | .retried nextAttemptAt =>
      List.map (fun c => (c.1, c.2.1 + 1, nextAttemptAt))
  | .unwritten => id

theorem schedules_outbox
    (outcome : Outcome) (m : Nat) (text : String) (now : Int)
    (o : Table OutboxRow) (n : Nat) :
    schedules (outcome.outbox m text now o) n =
      if n = m then outcome.reschedule (schedules o n) else schedules o n := by
  have hdeleted :
      schedules (o.deleteWhere (fun c => c.messageId == some m)) n =
        if n = m then [] else schedules o n := by
    unfold schedules Table.deleteWhere
    rw [List.filter_filter]
    split
    · rename_i hnm
      subst hnm
      rw [List.filter_eq_nil_iff.mpr]
      · rfl
      · intro c _
        simp
    · rename_i hnm
      congr 1
      apply List.filter_congr
      intro c _
      by_cases hc : c.messageId = some n
      · simp [hc, hnm]
      · simp [hc]
  cases outcome with
  | missing => exact hdeleted
  | sent => exact hdeleted
  | rejected => exact hdeleted
  | unwritten => simp [Outcome.outbox, Outcome.reschedule]
  | retried nextAttemptAt =>
      unfold schedules Outcome.outbox
      rw [Table.rows_modify, Table.updatedRows, List.filter_map, List.map_map]
      have hsame : ((fun c : OutboxRow => c.messageId == some n) ∘
          fun r => if (r.messageId == some m) = true then
            { r with
              retryCount := r.retryCount + 1
              nextAttemptAt := nextAttemptAt
              lastError := some text
              updatedAt := now }
          else r) = fun c => c.messageId == some n := by
        funext c
        dsimp only [Function.comp]
        split <;> rfl
      rw [hsame]
      split
      · rename_i hnm
        subst hnm
        rw [Outcome.reschedule, List.map_map]
        apply List.map_congr_left
        intro c hc
        have hcm : c.messageId = some n := by
          simpa using (List.mem_filter.mp hc).2
        simp [OutboxRow.schedule, hcm]
      · rename_i hnm
        apply List.map_congr_left
        intro c hc
        have hcm : c.messageId = some n := by
          simpa using (List.mem_filter.mp hc).2
        simp [hcm, hnm]

/-- The outcomes of the turns of a message, newest first. -/
def Drain.outcomesOf (d : Drain) (m : Nat) : List Outcome :=
  (d.turns.filter (fun t => t.messageId == m)).map Turn.outcome

theorem outcomesOf_cons
    (s : Store) (turns : List Turn) (m : Nat) (outcome : Outcome) (n : Nat) :
    (Drain.mk s (⟨m, outcome⟩ :: turns)).outcomesOf n =
      if n = m then outcome :: (Drain.mk s turns).outcomesOf n
      else (Drain.mk s turns).outcomesOf n := by
  unfold Drain.outcomesOf
  by_cases hnm : n = m
  · simp [hnm]
  · simp [hnm, Ne.symm hnm]

/-- Every turn keeps the property. -/
def TurnInvariant (Inv : Drain → Prop) : Prop :=
  ∀ d m text now outcome s', Inv d → TurnEffect m text now outcome d.store s' →
    Inv ⟨s', ⟨m, outcome⟩ :: d.turns⟩

theorem TurnInvariant.drainItems
    {Inv : Drain → Prop} (hturn : TurnInvariant Inv)
    (kind : QueueKind) (p : DrainPass) (items : List OutboxRow) {d : Drain}
    (hd : Inv d) :
    Inv (drainItems kind p items d).2 := by
  induction items generalizing d with
  | nil =>
      exact hd
  | cons item rest ih =>
      unfold PrivchatSdk.drainItems
      split
      · exact ih hd
      · rename_i m hm
        split
        · rename_i e s' hrun
          cases drainCommand_error hrun
          exact hd
        · rename_i outcome exit s' hrun
          have hnext := hturn d m _ _ outcome s' hd (turnEffect_drainCommand hrun)
          split
          · exact ih hnext
          · exact hnext
          · exact hnext

theorem TurnInvariant.drainQueueOnce
    {Inv : Drain → Prop} (hturn : TurnInvariant Inv)
    (kind : QueueKind) (limit : Nat) (p : DrainPass) {d : Drain} (hd : Inv d) :
    Inv (drainQueueOnce kind limit p d).2 := by
  unfold PrivchatSdk.drainQueueOnce
  split
  · exact hturn.drainItems kind p _ hd
  · exact hd

theorem TurnInvariant.drainOutboundQueues
    {Inv : Drain → Prop} (hturn : TurnInvariant Inv)
    (p : DrainPass) {d : Drain} (hd : Inv d) :
    Inv (drainOutboundQueues d p) := by
  have hnormal := hturn.drainQueueOnce .normal outboundDrainBatchSize p hd
  unfold PrivchatSdk.drainOutboundQueues
  split
  · rename_i d' hrun
    rw [drainNormalQueueOnce] at hrun
    rw [hrun] at hnormal
    exact hnormal
  · rename_i d' hrun
    rw [drainNormalQueueOnce] at hrun
    rw [hrun] at hnormal
    exact hturn.drainQueueOnce .attachment outboundDrainBatchSize p hnormal

/-- What every turn keeps holds after every run of passes. -/
theorem TurnInvariant.run
    {Inv : Drain → Prop} (hturn : TurnInvariant Inv)
    {d : Drain} (hd : Inv d) (passes : List DrainPass) :
    Inv (EventRun.run PrivchatSdk.drainOutboundQueues d passes) :=
  run_invariant Inv (fun _ p h => hturn.drainOutboundQueues p h) hd passes

/--
Schedule and status of every message are what the message's own outcomes made
of them since `s₀`.
-/
structure Reflects (s₀ : Store) (d : Drain) : Prop where
  schedule : ∀ m, schedules d.store.outbox m =
    (d.outcomesOf m).foldr Outcome.reschedule (schedules s₀.outbox m)
  status : ∀ m row', d.store.message.byRowid m = some row' →
    ∃ row, s₀.message.byRowid m = some row ∧
      row'.messageType = row.messageType ∧
      row'.status = (d.outcomesOf m).foldr Outcome.mark row.status

theorem Reflects.start (s : Store) : Reflects s ⟨s, []⟩ where
  schedule _ := rfl
  status _ row' hrow' := ⟨row', hrow', rfl, rfl⟩

theorem reflects_turn (s₀ : Store) : TurnInvariant (Reflects s₀) := by
  intro d m text now outcome s' hd htouch
  constructor
  · intro n
    rw [htouch.outbox, schedules_outbox, outcomesOf_cons]
    split
    · rw [hd.schedule n]
      rfl
    · exact hd.schedule n
  · intro n row'' hrow''
    obtain ⟨row', hrow', htype', hstatus'⟩ := htouch.message n row'' hrow''
    obtain ⟨row, hrow, htype, hstatus⟩ := hd.status n row' hrow'
    refine ⟨row, hrow, htype'.trans htype, ?_⟩
    rw [hstatus', hstatus, outcomesOf_cons]
    split
    · rfl
    · rfl

end Reflects

section Exits

/-- The statements of the acknowledgement. -/
def ackContexts : List String :=
  ["outbox ack begin tx", "outbox ack dedupe", "outbox ack update message",
    "outbox ack delete row", "outbox ack commit"]

/-- The ways in which a command never gets through. -/
inductive StuckWay where
  | unbuildable
  | unacknowledged
  | rejected
  | retryable
  deriving DecidableEq, Repr

/-- The stored message has a type that fits the request. -/
def typeStored (s : Store) (m : Nat) : Prop :=
  ∀ row, s.message.byRowid m = some row → typeFits row.messageType = true

/-- In this pass a command can be sent. -/
structure DrainPass.Sends (p : DrainPass) (m : Nat) : Prop where
  calm : ∃ now, p.commandEnv m = .calm now
  encodes : p.encodes m = true
  accepted : ∃ serverMessageId messageSeq,
    p.sendResult m = .accepted serverMessageId messageSeq

/-- In this pass the command of message `m` ends in the given way. -/
def DrainPass.EndsAs (p : DrainPass) (m : Nat) (s : Store) : StuckWay → Prop
  | .unbuildable =>
      (∃ now, p.commandEnv m = .calm now) ∧
        (∃ serverMessageId messageSeq,
          p.sendResult m = .accepted serverMessageId messageSeq) ∧
        ((∀ row, s.message.byRowid m = some row →
          typeFits row.messageType = false) ∨ p.encodes m = false)
  | .unacknowledged =>
      (∀ context, context ∉ ackContexts →
        (p.commandEnv m).fault context = false) ∧
        (∃ context ∈ ackContexts, (p.commandEnv m).fault context = true) ∧
        (∃ serverMessageId messageSeq,
          p.sendResult m = .accepted serverMessageId messageSeq) ∧
        typeStored s m ∧ p.encodes m = true
  | .rejected =>
      (∃ now, p.commandEnv m = .calm now) ∧ p.sendResult m = .failed false ∧
        typeStored s m ∧ p.encodes m = true
  | .retryable =>
      (∃ now, p.commandEnv m = .calm now) ∧ p.sendResult m = .failed true ∧
        typeStored s m ∧ p.encodes m = true

/-- The exit that a stuck command takes when its message is stored. -/
def StuckWay.exit (way : StuckWay) (kind : QueueKind) (row : MessageRow) :
    LoopExit :=
  match way, kind with
  | .unbuildable, .normal => .fail
  | .unbuildable, .attachment => .next
  | .unacknowledged, _ => .fail
  | .rejected, _ => .next
  | .retryable, _ => if row.serverMessageId = none then .stop else .next

theorem ensureLocalMessageId_stored
    {m : Nat} {env : Env} {s : Store} {row : MessageRow} (fresh : Nat)
    (hread : env.fault "get local_message_id" = false)
    (hwrite : env.fault "update local_message_id" = false)
    (hrow : s.message.byRowid m = some row) :
    ∃ n s', ensureLocalMessageId m fresh env s = (.ok n, s') := by
  have hquery : getLocalMessageId m env s = (.ok (some row.localMessageId), s) :=
    query_ok.mpr ⟨hread, by rw [hrow]; rfl, rfl⟩
  by_cases hpos : 0 < row.localMessageId
  · refine ⟨row.localMessageId, s, Exec.bind_ok.mpr ⟨_, _, hquery, ?_⟩⟩
    rw [Option.getD_some, if_pos hpos]
    rfl
  · refine ⟨fresh, { s with message := s.numbered m fresh env.now },
      Exec.bind_ok.mpr ⟨_, _, hquery, ?_⟩⟩
    rw [Option.getD_some, if_neg hpos]
    exact Exec.bind_ok.mpr
      ⟨.unit, _, modifyExisting_found hwrite hrow, rfl⟩

/-- The turn of a stored message comes to its send. -/
theorem drainCommand_stored
    {p : DrainPass} {m : Nat} {s : Store} {row : MessageRow}
    (kind : QueueKind) (retryCount : Int) (env : Env)
    (hget : env.fault "get message by id" = false)
    (hread : env.fault "get local_message_id" = false)
    (hwrite : env.fault "update local_message_id" = false)
    (hrow : s.message.byRowid m = some row) :
    ∃ s₁ row₁, s₁.message.byRowid m = some row₁ ∧
      row₁.serverMessageId = row.serverMessageId ∧
      drainCommand kind p m retryCount env s =
        sendStored kind p (row.toStored (s.messageExtra.lookup row.id)) m
          retryCount env s₁ := by
  obtain ⟨n, s₁, hn⟩ := ensureLocalMessageId_stored (p.fresh m)
    hread hwrite hrow
  have hquery : getMessageById m env s =
      (.ok (some (row.toStored (s.messageExtra.lookup row.id))), s) :=
    query_ok.mpr ⟨hget, by rw [Store.storedMessage, hrow]; rfl, rfl⟩
  have hrun : drainCommand kind p m retryCount env s =
      sendStored kind p (row.toStored (s.messageExtra.lookup row.id)) m
        retryCount env s₁ := by
    unfold drainCommand
    rw [Exec.bind_run, hquery]
    dsimp only
    rw [Exec.bind_run, hn]
  rcases ensureLocalMessageId_ok hrow hn with ⟨-, -, rfl⟩ | ⟨-, -, rfl⟩
  · exact ⟨_, row, hrow, rfl, hrun⟩
  · refine ⟨_, { row with localMessageId := p.fresh m, updatedAt := env.now },
      ?_, rfl, hrun⟩
    have hrid : row.id = m := ((Table.byRowid_eq_some_iff _ _ _).mp hrow).2
    show (s.numbered m (p.fresh m) env.now).byRowid m = _
    rw [Store.numbered, Table.byRowid_modify, hrow]
    simp [hrid]

/-- The command of a missing message is dropped, and the loop goes on. -/
theorem drainCommand_missing
    {m : Nat} {env : Env} {s : Store}
    (kind : QueueKind) (p : DrainPass) (retryCount : Int)
    (hget : env.fault "get message by id" = false)
    (hdrop : env.fault "outbox drop" = false)
    (hrow : s.message.byRowid m = none) :
    ∃ s', drainCommand kind p m retryCount env s = (.ok (.missing, .next), s') := by
  have hquery : getMessageById m env s = (.ok none, s) :=
    query_ok.mpr ⟨hget, by rw [Store.storedMessage, hrow]; rfl, rfl⟩
  have hdropped : outboxDrop m env s =
      (.ok .unit, { s with outbox := s.withoutCommand m }) :=
    exec_ok.mpr ⟨hdrop, rfl⟩
  refine ⟨{ s with outbox := s.withoutCommand m }, ?_⟩
  unfold drainCommand
  rw [Exec.bind_run, hquery]
  dsimp only
  rw [Exec.attempt_bind, hdropped]
  rfl

/-- The acknowledgement of a stored message succeeds unless a statement fails. -/
theorem outboxAckSent_stored
    {m : Nat} {row : MessageRow} {s : Store} (serverMessageId : Nat)
    (messageSeq : Int) (now : Int)
    (hrow : s.message.byRowid m = some row) :
    ∃ s', outboxAckSent m serverMessageId messageSeq (.calm now) s =
      (.ok .unit, s') := by
  obtain ⟨t, ht⟩ := exists_update_acknowledge s m serverMessageId messageSeq now
  refine ⟨{ s with message := t, outbox := s.withoutCommand m }, ?_⟩
  refine withTx_of_body rfl rfl ?_
  rw [nowMs_bind]
  refine Exec.bind_ok.mpr
    ⟨.unit, { s with message := s.dedupe serverMessageId m },
      exec_ok.mpr ⟨rfl, rfl⟩, ?_⟩
  have hupdate : updateMessage "outbox ack update message" m
      (MessageRow.acknowledge serverMessageId messageSeq now) (fun _ => rfl)
      (.calm now) { s with message := s.dedupe serverMessageId m } =
        (.ok ((s.dedupe serverMessageId m).rows.countP
          (fun r => Record.rowid r == m)), { s with message := t }) :=
    stmt_ok.mpr ⟨rfl, by rw [ht]⟩
  refine Exec.bind_ok.mpr ⟨_, _, hupdate, ?_⟩
  have hkept : (s.dedupe serverMessageId m).byRowid m = some row := by
    rw [byRowid_dedupe_self, hrow]
  obtain ⟨hmem, hrid⟩ := (Table.byRowid_eq_some_iff _ _ _).mp hkept
  have hcount : (s.dedupe serverMessageId m).rows.countP
      (fun r => Record.rowid r == m) ≠ 0 := by
    have : 0 < (s.dedupe serverMessageId m).rows.countP
        (fun r => Record.rowid r == m) :=
      List.countP_pos_iff.mpr ⟨row, hmem, by simpa using hrid⟩
    omega
  rw [if_neg hcount]
  exact exec_ok.mpr ⟨rfl, rfl⟩

/-- An acknowledgement that succeeded had no failing statement. -/
theorem outboxAckSent_faultless
    {m serverMessageId : Nat} {messageSeq : Int} {env : Env} {s s' : Store}
    {u : PUnit}
    (h : outboxAckSent m serverMessageId messageSeq env s = (.ok u, s')) :
    ∀ context ∈ ackContexts, env.fault context = false := by
  obtain ⟨hbegin, hcommit⟩ := withTx_marks h
  have hbody := withTx_ok h
  rw [nowMs_bind] at hbody
  obtain ⟨u₁, s₁, hd, hrest⟩ := Exec.bind_ok.mp hbody
  obtain ⟨n, s₂, hu, hrest⟩ := Exec.bind_ok.mp hrest
  split at hrest
  · cases hrest
  · have hdedupe := (exec_ok.mp hd).1
    have hupdate := (stmt_ok.mp hu).1
    have hdelete := (exec_ok.mp hrest).1
    simpa [ackContexts] using ⟨hbegin, hdedupe, hupdate, hdelete, hcommit⟩

/-- A reconciled row keeps its keys, so no unique index refuses it. -/
theorem outboxReconcileSent_stored
    {m sid : Nat} {row : MessageRow} {s : Store} (now : Int)
    (hrow : s.message.byRowid m = some row)
    (hsid : row.serverMessageId = some sid) :
    ∃ s', outboxReconcileSent m sid (.calm now) s = (.ok .unit, s') := by
  have hunique : RelTable.KeysUnique
      (s.message.updatedRows (fun r => Record.rowid r == m)
        (MessageRow.reconcile sid now)) := by
    refine Table.keysUnique_updatedRow _ m _ ?_
    intro a ha ham b hb hbm k hka hkb
    have harow : a = row :=
      s.message.rowid_inj ha ((Table.byRowid_eq_some_iff _ _ _).mp hrow).1
        (ham.trans ((Table.byRowid_eq_some_iff _ _ _).mp hrow).2.symm)
    have hka' : k ∈ Record.keys a := by
      rw [mem_keys_message] at hka ⊢
      rw [harow, hsid]
      exact hka
    have hab := s.message.key_inj ha hb hka' hkb
    rw [← hab] at hbm
    exact hbm ham
  cases ht : s.message.update (fun r => Record.rowid r == m)
      (MessageRow.reconcile sid now) (fun _ => rfl) with
  | none =>
      exact absurd hunique ((Table.update_eq_none_iff _ _ _ _).mp ht)
  | some t =>
      refine ⟨{ s with message := t, outbox := s.withoutCommand m }, ?_⟩
      refine withTx_of_body rfl rfl ?_
      rw [nowMs_bind]
      have hupdate : updateMessage "outbox reconcile mark sent" m
          (MessageRow.reconcile sid now) (fun _ => rfl) (.calm now) s =
            (.ok (s.message.rows.countP (fun r => Record.rowid r == m)),
              { s with message := t }) :=
        stmt_ok.mpr ⟨rfl, by rw [ht]⟩
      exact Exec.bind_ok.mpr ⟨_, _, hupdate, exec_ok.mpr ⟨rfl, rfl⟩⟩

theorem awaitServerMessageId_stored
    {m : Nat} {row : MessageRow} {s : Store} (attempts : Nat) (now : Int)
    (hrow : s.message.byRowid m = some row) :
    awaitServerMessageId m (attempts + 1) (.calm now) s =
      (.ok row.serverMessageId, s) := by
  have hquery : getMessageById m (.calm now) s =
      (.ok (some (row.toStored (s.messageExtra.lookup row.id))), s) :=
    query_ok.mpr ⟨rfl, by rw [Store.storedMessage, hrow]; rfl, rfl⟩
  induction attempts with
  | zero =>
      unfold awaitServerMessageId
      rw [Exec.attempt_bind, hquery]
      cases hsid : row.serverMessageId with
      | none => simp [MessageRow.toStored, hsid, awaitServerMessageId]
      | some sid => simp [MessageRow.toStored, hsid]
  | succ attempts ih =>
      rw [awaitServerMessageId, Exec.attempt_bind, hquery]
      cases hsid : row.serverMessageId with
      | none =>
          rw [hsid] at ih
          simpa [MessageRow.toStored, hsid] using ih
      | some sid => simp [MessageRow.toStored, hsid]

/-- Without failing statements a failed send breaks only to be retried. -/
theorem settleFailed_exit
    {m : Nat} {row : MessageRow} {s : Store}
    (p : DrainPass) (retryCount : Int) (retryable : Bool) (now : Int)
    (hrow : s.message.byRowid m = some row) :
    ∃ outcome s', settleFailed p m retryCount retryable (.calm now) s =
      (.ok (outcome,
        if retryable = true ∧ row.serverMessageId = none then .stop else .next),
        s') := by
  unfold settleFailed
  rw [Exec.bind_run, awaitServerMessageId_stored 11 now hrow]
  cases hsid : row.serverMessageId with
  | some sid =>
      obtain ⟨s', hrun⟩ := outboxReconcileSent_stored now hrow hsid
      dsimp only
      rw [Exec.attempt_bind, hrun]
      exact ⟨.sent, s', by simp⟩
  | none =>
      cases retryable with
      | true =>
          obtain ⟨outcome, s', hnote, -⟩ :=
            noteRetry_settles p m retryCount (.calm now) s
          dsimp only
          rw [if_pos rfl, Exec.bind_run, hnote]
          exact ⟨outcome, s', by simp⟩
      | false =>
          dsimp only
          rw [if_neg Bool.false_ne_true, Exec.attempt_bind]
          have hreject : outboxReject m 3 (.calm now) s =
              (.ok .unit, { s with
                message := s.withStatus m 3 now
                outbox := s.withoutCommand m }) :=
            withTx_of_body rfl rfl (by
              rw [nowMs_bind]
              exact Exec.bind_ok.mpr
                ⟨_, _, modifyMessage_ok.mpr ⟨rfl, rfl, rfl⟩,
                  exec_ok.mpr ⟨rfl, rfl⟩⟩)
          rw [hreject]
          exact ⟨.rejected, _, rfl⟩

section SendStored

variable {p : DrainPass} {msg : StoredMessage} {m : Nat}

theorem sendStored_accepted
    {serverMessageId : Nat} {messageSeq : Int}
    (kind : QueueKind) (retryCount : Int) (hbuilds : p.builds msg = true)
    (hsend : p.sendResult m = .accepted serverMessageId messageSeq) :
    sendStored kind p msg m retryCount =
      commitAccepted p m retryCount serverMessageId messageSeq := by
  unfold sendStored
  rw [hbuilds, hsend]
  cases kind <;> rfl

theorem sendStored_failed
    {retryable : Bool}
    (kind : QueueKind) (retryCount : Int) (hbuilds : p.builds msg = true)
    (hsend : p.sendResult m = .failed retryable) :
    sendStored kind p msg m retryCount =
      settleFailed p m retryCount retryable := by
  unfold sendStored
  rw [hbuilds, hsend]
  cases kind <;> rfl

theorem sendStored_unbuilt
    {serverMessageId : Nat} {messageSeq : Int}
    (retryCount : Int) (hbuilds : p.builds msg = false)
    (hsend : p.sendResult m = .accepted serverMessageId messageSeq) :
    sendStored .normal p msg m retryCount = pure (.unwritten, .fail) ∧
      sendStored .attachment p msg m retryCount =
        settleFailed p m retryCount false := by
  unfold sendStored
  rw [hbuilds, hsend]
  exact ⟨rfl, rfl⟩

end SendStored

/-- A command that can be sent leaves the queue, and the loop goes on. -/
theorem drainCommand_sends
    {p : DrainPass} {m : Nat} {s : Store}
    (kind : QueueKind) (retryCount : Int)
    (hsends : p.Sends m) (htype : typeStored s m) :
    ∃ outcome s', drainCommand kind p m retryCount (p.commandEnv m) s =
      (.ok (outcome, .next), s') ∧ (outcome = .missing ∨ outcome = .sent) := by
  obtain ⟨now, hcalm⟩ := hsends.calm
  obtain ⟨sid, seq, haccepted⟩ := hsends.accepted
  rw [hcalm]
  cases hrow : s.message.byRowid m with
  | none =>
      obtain ⟨s', hrun⟩ := @drainCommand_missing m (.calm now) s kind p
        retryCount rfl rfl hrow
      exact ⟨.missing, s', hrun, Or.inl rfl⟩
  | some row =>
      obtain ⟨s₁, row₁, hrow₁, -, hrun⟩ :=
        drainCommand_stored (p := p) kind retryCount (.calm now)
          rfl rfl rfl hrow
      have hrid : row.id = m := ((Table.byRowid_eq_some_iff _ _ _).mp hrow).2
      have hbuilds : p.builds (row.toStored (s.messageExtra.lookup row.id)) =
          true := by
        simp [DrainPass.builds, MessageRow.toStored, htype row hrow, hrid,
          hsends.encodes]
      obtain ⟨s', hack⟩ := outboxAckSent_stored sid seq now hrow₁
      refine ⟨.sent, s', ?_, Or.inr rfl⟩
      rw [hrun, sendStored_accepted kind retryCount hbuilds haccepted,
        commitAccepted, Exec.attempt_bind, hack]
      rfl

/-- The exit of a stuck command whose message is stored. -/
theorem drainCommand_stuck
    {p : DrainPass} {m : Nat} {s₀ s : Store} {way : StuckWay}
    {row row₀ : MessageRow}
    (kind : QueueKind) (retryCount : Int)
    (hends : p.EndsAs m s₀ way)
    (hrow : s.message.byRowid m = some row)
    (hrow₀ : s₀.message.byRowid m = some row₀)
    (htype : row.messageType = row₀.messageType) :
    ∃ outcome s', drainCommand kind p m retryCount (p.commandEnv m) s =
      (.ok (outcome, way.exit kind row), s') := by
  have hrid : row.id = m := ((Table.byRowid_eq_some_iff _ _ _).mp hrow).2
  have hbuilds : p.builds (row.toStored (s.messageExtra.lookup row.id)) =
      (typeFits row₀.messageType && p.encodes m) := by
    simp [DrainPass.builds, MessageRow.toStored, hrid, htype]
  cases way with
  | unbuildable =>
      obtain ⟨⟨now, hcalm⟩, ⟨sid, seq, haccepted⟩, hnot⟩ := hends
      have hfalse : p.builds (row.toStored (s.messageExtra.lookup row.id)) =
          false := by
        rw [hbuilds]
        rcases hnot with hfits | hencodes
        · simp [hfits row₀ hrow₀]
        · simp [hencodes]
      rw [hcalm]
      obtain ⟨s₁, row₁, hrow₁, -, hrun⟩ :=
        drainCommand_stored (p := p) kind retryCount (.calm now)
          rfl rfl rfl hrow
      rw [hrun]
      cases kind with
      | normal =>
          rw [(sendStored_unbuilt retryCount hfalse haccepted).1]
          exact ⟨.unwritten, s₁, rfl⟩
      | attachment =>
          rw [(sendStored_unbuilt retryCount hfalse haccepted).2]
          obtain ⟨outcome, s', hexit⟩ :=
            settleFailed_exit p retryCount false now hrow₁
          exact ⟨outcome, s', by rw [hexit]; simp [StuckWay.exit]⟩
  | unacknowledged =>
      obtain ⟨hothers, ⟨context, hcontext, hfault⟩, ⟨sid, seq, haccepted⟩,
        hfits, hencodes⟩ := hends
      obtain ⟨s₁, row₁, -, -, hrun⟩ :=
        drainCommand_stored (p := p) kind retryCount (p.commandEnv m)
          (hothers _ (by decide)) (hothers _ (by decide))
          (hothers _ (by decide)) hrow
      rw [hfits row₀ hrow₀, hencodes] at hbuilds
      rw [hrun, sendStored_accepted kind retryCount hbuilds haccepted]
      obtain ⟨outcome, s', hnote, -⟩ :=
        noteRetry_settles p m retryCount (p.commandEnv m) s₁
      have hack : ∃ e, outboxAckSent m sid seq (p.commandEnv m) s₁ =
          (.error e, s₁) := by
        cases hres : outboxAckSent m sid seq (p.commandEnv m) s₁ with
        | mk res s₂ =>
        cases res with
        | ok u =>
            have hnofault := outboxAckSent_faultless hres context hcontext
            rw [hfault] at hnofault
            cases hnofault
        | error e =>
            cases withTx_error hres
            exact ⟨e, rfl⟩
      obtain ⟨e, hack⟩ := hack
      refine ⟨outcome, s', ?_⟩
      rw [commitAccepted, Exec.attempt_bind, hack]
      exact Exec.bind_ok.mpr ⟨outcome, s', hnote, by cases kind <;> rfl⟩
  | rejected =>
      obtain ⟨⟨now, hcalm⟩, hfailed, hfits, hencodes⟩ := hends
      rw [hcalm]
      obtain ⟨s₁, row₁, hrow₁, -, hrun⟩ :=
        drainCommand_stored (p := p) kind retryCount (.calm now)
          rfl rfl rfl hrow
      rw [hfits row₀ hrow₀, hencodes] at hbuilds
      rw [hrun, sendStored_failed kind retryCount hbuilds hfailed]
      obtain ⟨outcome, s', hexit⟩ :=
        settleFailed_exit p retryCount false now hrow₁
      exact ⟨outcome, s', by rw [hexit]; simp [StuckWay.exit]⟩
  | retryable =>
      obtain ⟨⟨now, hcalm⟩, hfailed, hfits, hencodes⟩ := hends
      rw [hcalm]
      obtain ⟨s₁, row₁, hrow₁, hsid, hrun⟩ :=
        drainCommand_stored (p := p) kind retryCount (.calm now)
          rfl rfl rfl hrow
      rw [hfits row₀ hrow₀, hencodes] at hbuilds
      rw [hrun, sendStored_failed kind retryCount hbuilds hfailed]
      obtain ⟨outcome, s', hexit⟩ :=
        settleFailed_exit p retryCount true now hrow₁
      exact ⟨outcome, s', by rw [hexit]; simp [StuckWay.exit, hsid]⟩

end Exits

section Progress

/-- What `outbox_peek` selects from, in its order. -/
def dueCommands (kind : QueueKind) (now : Int) (o : Table OutboxRow) :
    List OutboxRow :=
  (o.rows.filter (OutboxRow.due kind.commandType now)).insertionSort
    OutboxRow.Before

theorem mem_dueCommands
    {kind : QueueKind} {now : Int} {o : Table OutboxRow} {c : OutboxRow} :
    c ∈ dueCommands kind now o ↔
      c ∈ o.rows ∧ c.due kind.commandType now = true := by
  rw [dueCommands, List.mem_insertionSort, List.mem_filter]

theorem nodup_dueCommands
    (kind : QueueKind) (now : Int) (o : Table OutboxRow) :
    (dueCommands kind now o).Nodup := by
  have hrows : o.rows.Nodup :=
    o.sorted.imp (fun {a b} hab heq => by rw [heq] at hab; exact Nat.lt_irrefl _ hab)
  exact (List.perm_insertionSort _ _).nodup_iff.mpr (hrows.filter _)

theorem due_messageId
    {kind : QueueKind} {now : Int} {c : OutboxRow}
    (h : c.due kind.commandType now = true) :
    ∃ m, c.messageId = some m := by
  simp only [OutboxRow.due, Bool.and_eq_true] at h
  exact Option.isSome_iff_exists.mp h.2

theorem drainQueueOnce_peeked
    (kind : QueueKind) (limit : Nat) (p : DrainPass) (d : Drain)
    (hpeek : (p.peekEnv kind).fault "outbox peek query" = false) :
    drainQueueOnce kind limit p d =
      drainItems kind p
        ((dueCommands kind (p.peekEnv kind).now d.store.outbox).take limit) d := by
  have hrun : outboxPeek kind.commandType limit (p.peekEnv kind).now
      (p.peekEnv kind) d.store =
        (.ok ((dueCommands kind (p.peekEnv kind).now d.store.outbox).take limit),
          d.store) :=
    query_ok.mpr ⟨hpeek, rfl, rfl⟩
  rw [drainQueueOnce, hrun]

/-- The exit of a stuck command, a missing message included. -/
def StuckWay.exitIn
    (way : StuckWay) (kind : QueueKind) (m : Nat) (s : Store) : LoopExit :=
  match s.message.byRowid m with
  | none => .next
  | some row => way.exit kind row

/-- The first due command of the queue is the one of message `m`. -/
def heads (kind : QueueKind) (m : Nat) (s : Store) (p : DrainPass) : Bool :=
  (dueCommands kind (p.peekEnv kind).now s.outbox).head?.any
    (fun c => c.messageId == some m)

/-- Nothing of the queue is due. -/
def quiet (kind : QueueKind) (s : Store) (p : DrainPass) : Bool :=
  (dueCommands kind (p.peekEnv kind).now s.outbox).isEmpty

/--
The stuck command takes the whole pass: it heads its queue and ends the loop
there, and the pass does not reach a due command of the other queue.
-/
def stalls (way : StuckWay) (m : Nat) (s : Store) (p : DrainPass) : Bool :=
  (heads .normal m s p &&
      (way.exitIn .normal m s == .fail ||
        (way.exitIn .normal m s == .stop && quiet .attachment s p))) ||
    (quiet .normal s p && heads .attachment m s p &&
      way.exitIn .attachment m s != .next)

/-- A pass in which one command ends its way and the others can be sent. -/
structure OneStuck
    (way : StuckWay) (m : Nat) (s₀ : Store) (start : Int) (p : DrainPass) :
    Prop where
  clock : ∀ kind, start ≤ (p.peekEnv kind).now
  peeks : ∀ kind, (p.peekEnv kind).fault "outbox peek query" = false
  others : ∀ n, n ≠ m → p.Sends n
  stuck : p.EndsAs m s₀ way

/-- The commands of the other messages that are still in the outbox. -/
def othersLeft (m : Nat) (s : Store) : Nat :=
  s.outbox.rows.countP (fun c => c.messageId.any (fun n => n != m))

/-- A command whose message had no turn is still there as it was. -/
def Untouched (s₀ : Store) (d : Drain) : Prop :=
  ∀ c ∈ s₀.outbox.rows, ∀ m, c.messageId = some m → d.outcomesOf m = [] →
    c ∈ d.store.outbox.rows

/-- A turn keeps the commands of the other messages. -/
theorem TurnEffect.mem_iff
    {m : Nat} {text : String} {now : Int} {outcome : Outcome} {s s' : Store}
    (h : TurnEffect m text now outcome s s') {c : OutboxRow}
    (hc : c.messageId ≠ some m) :
    c ∈ s'.outbox.rows ↔ c ∈ s.outbox.rows := by
  have hdeleted :
      c ∈ (s.outbox.deleteWhere (fun c => c.messageId == some m)).rows ↔
        c ∈ s.outbox.rows := by
    simp [hc]
  rw [h.outbox]
  cases outcome with
  | missing => exact hdeleted
  | sent => exact hdeleted
  | rejected => exact hdeleted
  | unwritten => exact Iff.rfl
  | retried nextAttemptAt =>
      rw [Outcome.outbox, Table.mem_modify]
      constructor
      · rintro ⟨c₀, hc₀, heq⟩
        split at heq
        · rename_i hm
          subst heq
          exact absurd (by simpa using hm) hc
        · exact heq ▸ hc₀
      · intro hmem
        exact ⟨c, hmem, by simp [hc]⟩

/-- A row of the touched message comes from a row of the same queue. -/
theorem TurnEffect.commandType
    {m : Nat} {text : String} {now : Int} {outcome : Outcome} {s s' : Store}
    (h : TurnEffect m text now outcome s s') {c : OutboxRow}
    (hc : c ∈ s'.outbox.rows) (hcm : c.messageId = some m) :
    ∃ c₀ ∈ s.outbox.rows, c₀.messageId = some m ∧
      c₀.commandType = c.commandType := by
  have hdeleted :
      ¬ c ∈ (s.outbox.deleteWhere (fun c => c.messageId == some m)).rows := by
    simp [hcm]
  rw [h.outbox] at hc
  cases outcome with
  | missing => exact absurd hc hdeleted
  | sent => exact absurd hc hdeleted
  | rejected => exact absurd hc hdeleted
  | unwritten => exact ⟨c, hc, hcm, rfl⟩
  | retried nextAttemptAt =>
      rw [Outcome.outbox, Table.mem_modify] at hc
      obtain ⟨c₀, hc₀, heq⟩ := hc
      split at heq
      · rename_i hm
        subst heq
        exact ⟨c₀, hc₀, by simpa using hm, rfl⟩
      · exact ⟨c, heq ▸ hc₀, hcm, rfl⟩

theorem untouched_turn (s₀ : Store) : TurnInvariant (Untouched s₀) := by
  intro d m text now outcome s' hd htouch c hc n hcn hnone
  rw [outcomesOf_cons] at hnone
  by_cases hnm : n = m
  · simp [hnm] at hnone
  · rw [if_neg hnm] at hnone
    refine (htouch.mem_iff ?_).mpr (hd c hc n hcn hnone)
    rw [hcn]
    simpa using hnm

theorem TurnEffect.othersLeft_le
    {m : Nat} {text : String} {now : Int} {outcome : Outcome} {s s' : Store}
    (h : TurnEffect m text now outcome s s') (x : Nat) :
    othersLeft x s' ≤ othersLeft x s := by
  have hdeleted (o : Table OutboxRow) (q p : OutboxRow → Bool) :
      (o.deleteWhere q).rows.countP p ≤ o.rows.countP p :=
    List.Sublist.countP_le List.filter_sublist
  unfold othersLeft
  rw [h.outbox]
  cases outcome with
  | missing => exact hdeleted _ _ _
  | sent => exact hdeleted _ _ _
  | rejected => exact hdeleted _ _ _
  | unwritten => exact Nat.le_refl _
  | retried nextAttemptAt =>
      rw [Outcome.outbox, Table.rows_modify, Table.updatedRows, List.countP_map]
      apply Nat.le_of_eq
      apply List.countP_congr
      intro c _
      dsimp only [Function.comp]
      split <;> rfl

/-- A turn that takes the command of another message off the outbox. -/
theorem TurnEffect.othersLeft_lt
    {m x : Nat} {text : String} {now : Int} {outcome : Outcome} {s s' : Store}
    (h : TurnEffect m text now outcome s s') (hm : m ≠ x)
    (hgone : outcome = .missing ∨ outcome = .sent)
    {c : OutboxRow} (hc : c ∈ s.outbox.rows) (hcm : c.messageId = some m) :
    othersLeft x s' < othersLeft x s := by
  have hrows : s'.outbox.rows =
      s.outbox.rows.filter (fun c => !(c.messageId == some m)) := by
    rw [h.outbox]
    rcases hgone with rfl | rfl <;> rfl
  have hsplit := List.countP_eq_countP_filter_add s.outbox.rows
    (fun c => c.messageId.any (fun n => n != x))
    (fun c => !(c.messageId == some m))
  have hpos : 0 < (s.outbox.rows.filter
      (fun c => !(!(c.messageId == some m)))).countP
        (fun c => c.messageId.any (fun n => n != x)) :=
    List.countP_pos_iff.mpr
      ⟨c, List.mem_filter.mpr ⟨hc, by simp [hcm]⟩, by simp [hcm, hm]⟩
  unfold othersLeft
  rw [hrows]
  omega

theorem othersLeft_turn (x k : Nat) :
    TurnInvariant (fun d => othersLeft x d.store ≤ k) := by
  intro d m text now outcome s' hd htouch
  exact Nat.le_trans (htouch.othersLeft_le x) hd

theorem attempted_turn (m : Nat) :
    TurnInvariant (fun d => d.outcomesOf m ≠ []) := by
  intro d n text now outcome s' hd _
  rw [outcomesOf_cons]
  split
  · simp
  · exact hd

/-- The loop goes on past a command that can be sent. -/
theorem drainItems_sends
    {p : DrainPass} {item : OutboxRow} {m : Nat} {d : Drain}
    (kind : QueueKind) (rest : List OutboxRow)
    (hm : item.messageId = some m) (hsends : p.Sends m)
    (htype : typeStored d.store m) :
    ∃ outcome s', (outcome = .missing ∨ outcome = .sent) ∧
      TurnEffect m (p.errorText m) (p.commandEnv m).now outcome d.store s' ∧
      drainItems kind p (item :: rest) d =
        drainItems kind p rest ⟨s', ⟨m, outcome⟩ :: d.turns⟩ := by
  obtain ⟨outcome, s', hrun, hgone⟩ :=
    drainCommand_sends kind item.retryCount hsends htype
  refine ⟨outcome, s', hgone, turnEffect_drainCommand hrun, ?_⟩
  rw [drainItems, hm]
  dsimp only
  rw [hrun]

/-- A loop whose first command can be sent takes one off the outbox. -/
theorem drainItems_lt
    {p : DrainPass} {item : OutboxRow} {m x : Nat} {d : Drain}
    (kind : QueueKind) (rest : List OutboxRow)
    (hitem : item ∈ d.store.outbox.rows)
    (hm : item.messageId = some m) (hmx : m ≠ x) (hsends : p.Sends m)
    (htype : typeStored d.store m) :
    othersLeft x (drainItems kind p (item :: rest) d).2.store <
      othersLeft x d.store := by
  obtain ⟨outcome, s', hgone, htouch, hrun⟩ :=
    drainItems_sends kind rest hm hsends htype
  rw [hrun]
  have hlt := htouch.othersLeft_lt hmx hgone hitem hm
  have hle := (othersLeft_turn x (othersLeft x s')).drainItems kind p rest
    (d := ⟨s', ⟨m, outcome⟩ :: d.turns⟩) (Nat.le_refl _)
  omega

/-- The row of a message at most changed columns other than the type. -/
theorem Reflects.typeStored
    {s₀ : Store} {d : Drain} (h : Reflects s₀ d) {m : Nat}
    (htype : typeStored s₀ m) : typeStored d.store m := by
  intro row' hrow'
  obtain ⟨row, hrow, heq, -⟩ := h.status m row' hrow'
  rw [heq]
  exact htype row hrow

/-- The turn of the stuck command, its message stored or missing. -/
theorem drainCommand_exitIn
    {way : StuckWay} {x : Nat} {s₀ : Store} {p : DrainPass} {d : Drain}
    (kind : QueueKind) (retryCount : Int)
    (hends : p.EndsAs x s₀ way) (hd : Reflects s₀ d) :
    ∃ outcome s', drainCommand kind p x retryCount (p.commandEnv x) d.store =
      (.ok (outcome, way.exitIn kind x d.store), s') := by
  unfold StuckWay.exitIn
  cases hrow : d.store.message.byRowid x with
  | none =>
      have hreads : (p.commandEnv x).fault "get message by id" = false ∧
          (p.commandEnv x).fault "outbox drop" = false := by
        cases way with
        | unacknowledged =>
            exact ⟨hends.1 _ (by decide), hends.1 _ (by decide)⟩
        | unbuildable =>
            obtain ⟨⟨now, hcalm⟩, -⟩ := hends
            rw [hcalm]
            exact ⟨rfl, rfl⟩
        | rejected =>
            obtain ⟨⟨now, hcalm⟩, -⟩ := hends
            rw [hcalm]
            exact ⟨rfl, rfl⟩
        | retryable =>
            obtain ⟨⟨now, hcalm⟩, -⟩ := hends
            rw [hcalm]
            exact ⟨rfl, rfl⟩
      obtain ⟨s', hrun⟩ := drainCommand_missing kind p retryCount hreads.1
        hreads.2 hrow
      exact ⟨.missing, s', hrun⟩
  | some row =>
      obtain ⟨row₀, hrow₀, htype, -⟩ := hd.status x row hrow
      exact drainCommand_stuck kind retryCount hends hrow hrow₀ htype

/-- The loop at the stuck command. -/
theorem drainItems_stuck
    {p : DrainPass} {item : OutboxRow} {x : Nat} {way : StuckWay}
    {s₀ : Store} {d : Drain} (kind : QueueKind) (rest : List OutboxRow)
    (hx : item.messageId = some x)
    (hends : p.EndsAs x s₀ way) (hd : Reflects s₀ d) :
    ∃ outcome s',
      TurnEffect x (p.errorText x) (p.commandEnv x).now outcome d.store s' ∧
      drainItems kind p (item :: rest) d =
        match way.exitIn kind x d.store with
        | .next => drainItems kind p rest ⟨s', ⟨x, outcome⟩ :: d.turns⟩
        | .stop => (true, ⟨s', ⟨x, outcome⟩ :: d.turns⟩)
        | .fail => (false, ⟨s', ⟨x, outcome⟩ :: d.turns⟩) := by
  obtain ⟨outcome, s', hrun⟩ :=
    drainCommand_exitIn kind item.retryCount hends hd
  refine ⟨outcome, s', turnEffect_drainCommand hrun, ?_⟩
  rw [drainItems, hx]
  dsimp only
  rw [hrun]

end Progress

section Passes

variable {way : StuckWay} {x : Nat} {s₀ : Store} {start : Int} {p : DrainPass}

theorem quiet_iff (kind : QueueKind) (s : Store) (p : DrainPass) :
    quiet kind s p = true ↔ dueCommands kind (p.peekEnv kind).now s.outbox = [] :=
  List.isEmpty_iff

theorem heads_iff (kind : QueueKind) (m : Nat) (s : Store) (p : DrainPass) :
    heads kind m s p = true ↔
      ∃ item rest, dueCommands kind (p.peekEnv kind).now s.outbox = item :: rest ∧
        item.messageId = some m := by
  unfold heads
  cases dueCommands kind (p.peekEnv kind).now s.outbox with
  | nil => simp
  | cons item rest => simp

/-- Due commands have different messages. -/
theorem dueCommands_inj
    {kind : QueueKind} {now : Int} {o : Table OutboxRow} {a b : OutboxRow}
    (ha : a ∈ dueCommands kind now o) (hb : b ∈ dueCommands kind now o) {m : Nat}
    (ham : a.messageId = some m) (hbm : b.messageId = some m) :
    a = b :=
  o.key_inj (mem_dueCommands.mp ha).1 (mem_dueCommands.mp hb).1
    (k := .inr m) (by simp [ham]) (by simp [hbm])

/-- Behind a command there is the command of another message. -/
theorem second_ne
    {kind : QueueKind} {now : Int} {o : Table OutboxRow} {item second : OutboxRow}
    {rest : List OutboxRow} {m : Nat}
    (hdue : dueCommands kind now o = item :: second :: rest)
    (hm : item.messageId = some m) :
    ∃ k, second.messageId = some k ∧ k ≠ m := by
  have hitem : item ∈ dueCommands kind now o := by
    rw [hdue]
    exact List.mem_cons_self
  have hsecond : second ∈ dueCommands kind now o := by
    rw [hdue]
    exact List.mem_cons_of_mem _ List.mem_cons_self
  obtain ⟨k, hk⟩ := due_messageId (mem_dueCommands.mp hsecond).2
  refine ⟨k, hk, ?_⟩
  rintro rfl
  have hnodup := nodup_dueCommands kind now o
  rw [hdue, dueCommands_inj hitem hsecond hm hk] at hnodup
  exact (List.nodup_cons.mp hnodup).1 List.mem_cons_self

/--
A queue in which another command is due loses one, unless the stuck command
heads it and ends the loop.
-/
theorem drainQueueOnce_lt
    {d : Drain} {kind : QueueKind} {c : OutboxRow} {m : Nat}
    (hp : OneStuck way x s₀ start p) (hd : Reflects s₀ d)
    (hfits : ∀ n, n ≠ x → typeStored s₀ n)
    (hnext : heads kind x d.store p = true →
      way.exitIn kind x d.store = .next)
    (hc : c ∈ dueCommands kind (p.peekEnv kind).now d.store.outbox)
    (hcm : c.messageId = some m) (hmx : m ≠ x) :
    othersLeft x (drainQueueOnce kind outboundDrainBatchSize p d).2.store <
      othersLeft x d.store := by
  rw [drainQueueOnce_peeked _ _ _ _ (hp.peeks kind)]
  cases hdue : dueCommands kind (p.peekEnv kind).now d.store.outbox with
  | nil =>
      rw [hdue] at hc
      cases hc
  | cons item rest =>
      have hitem : item ∈ dueCommands kind (p.peekEnv kind).now d.store.outbox := by
        rw [hdue]
        exact List.mem_cons_self
      obtain ⟨n, hn⟩ := due_messageId (mem_dueCommands.mp hitem).2
      rw [outboundDrainBatchSize, List.take_succ_cons]
      by_cases hnx : n = x
      · -- The stuck command goes first; the second command is another one.
        subst hnx
        have hhead : heads kind n d.store p = true :=
          (heads_iff ..).mpr ⟨item, rest, hdue, hn⟩
        obtain ⟨outcome, s', htouch, hrun⟩ :=
          drainItems_stuck kind (rest.take 19) hn hp.stuck hd
        rw [hrun, hnext hhead]
        dsimp only
        cases rest with
        | nil =>
            rw [hdue, List.mem_singleton] at hc
            rw [hc, hn] at hcm
            exact absurd (Option.some.inj hcm).symm hmx
        | cons second rest =>
            have hsecond : second ∈
                dueCommands kind (p.peekEnv kind).now d.store.outbox := by
              rw [hdue]
              exact List.mem_cons_of_mem _ List.mem_cons_self
            obtain ⟨k, hk, hkn⟩ := second_ne hdue hn
            have hd' := reflects_turn s₀ d n _ _ outcome s' hd htouch
            have hmem : second ∈ s'.outbox.rows :=
              (htouch.mem_iff (by rw [hk]; simpa using hkn)).mpr
                (mem_dueCommands.mp hsecond).1
            rw [List.take_succ_cons]
            have hlt := drainItems_lt (d := ⟨s', ⟨n, outcome⟩ :: d.turns⟩)
              kind (rest.take 18) hmem hk hkn
              (hp.others k hkn) (hd'.typeStored (hfits k hkn))
            exact Nat.lt_of_lt_of_le hlt (htouch.othersLeft_le n)
      · exact drainItems_lt kind _ (mem_dueCommands.mp hitem).1 hn hnx
          (hp.others n hnx) (hd.typeStored (hfits n hnx))

/-- The attachments cannot bring commands back. -/
theorem othersLeft_pass_le (x : Nat) (p : DrainPass) (d : Drain) :
    othersLeft x (drainOutboundQueues d p).store ≤
      othersLeft x (drainQueueOnce .normal outboundDrainBatchSize p d).2.store := by
  unfold drainOutboundQueues
  split
  · rename_i d' hrun
    rw [drainNormalQueueOnce] at hrun
    rw [hrun]
  · rename_i d' hrun
    rw [drainNormalQueueOnce] at hrun
    rw [hrun]
    exact (othersLeft_turn x _).drainQueueOnce .attachment _ p (Nat.le_refl _)

/-- After a normal queue that ends well the pass drains the attachments. -/
theorem drainOutboundQueues_of_normal
    {d d' : Drain}
    (h : drainQueueOnce .normal outboundDrainBatchSize p d = (true, d')) :
    drainOutboundQueues d p =
      (drainQueueOnce .attachment outboundDrainBatchSize p d').2 := by
  rw [drainOutboundQueues, drainNormalQueueOnce, h]
  rfl

/-- The turn of a normal command does not touch the attachments. -/
theorem attachments_after_normal
    {d : Drain} {text : String} {now : Int} {outcome : Outcome} {s' : Store}
    (hhead : heads .normal x d.store p = true)
    (htouch : TurnEffect x text now outcome d.store s') {c : OutboxRow} :
    c ∈ dueCommands .attachment (p.peekEnv .attachment).now s'.outbox ↔
      c ∈ dueCommands .attachment (p.peekEnv .attachment).now d.store.outbox ∧
        c.messageId ≠ some x := by
  obtain ⟨item, rest, hdue, hx⟩ := (heads_iff ..).mp hhead
  have hnormal : item ∈ d.store.outbox.rows ∧
      item.due QueueKind.normal.commandType (p.peekEnv .normal).now = true :=
    mem_dueCommands.mp (hdue ▸ List.mem_cons_self)
  rw [mem_dueCommands, mem_dueCommands]
  constructor
  · rintro ⟨hmem, hdue⟩
    have hcx : c.messageId ≠ some x := by
      intro hcx
      obtain ⟨c₀, hc₀, hc₀x, htype⟩ := htouch.commandType hmem hcx
      have hsame : c₀ = item :=
        d.store.outbox.key_inj hc₀ hnormal.1 (k := .inr x) (by simp [hc₀x])
          (by simp [hx])
      have hitype := hnormal.2
      simp only [OutboxRow.due, Bool.and_eq_true, beq_iff_eq] at hitype hdue
      rw [← hsame, htype, hdue.1.1.1] at hitype
      exact absurd hitype.1.1.1 (by decide)
    exact ⟨⟨(htouch.mem_iff hcx).mp hmem, hdue⟩, hcx⟩
  · rintro ⟨⟨hmem, hdue⟩, hcx⟩
    exact ⟨(htouch.mem_iff hcx).mpr hmem, hdue⟩

/-- A pass that is not stalled takes another command off the outbox. -/
theorem othersLeft_lt_of_not_stalls
    {d : Drain} {kind : QueueKind} {c : OutboxRow} {m : Nat}
    (hp : OneStuck way x s₀ start p) (hd : Reflects s₀ d)
    (hfits : ∀ n, n ≠ x → typeStored s₀ n)
    (hmoves : stalls way x d.store p = false)
    (hc : c ∈ dueCommands kind (p.peekEnv kind).now d.store.outbox)
    (hcm : c.messageId = some m) (hmx : m ≠ x) :
    othersLeft x (drainOutboundQueues d p).store < othersLeft x d.store := by
  have hnormal {c : OutboxRow} {m : Nat}
      (hnext : heads .normal x d.store p = true →
        way.exitIn .normal x d.store = .next)
      (hc : c ∈ dueCommands .normal (p.peekEnv .normal).now d.store.outbox)
      (hcm : c.messageId = some m) (hmx : m ≠ x) :
      othersLeft x (drainOutboundQueues d p).store < othersLeft x d.store :=
    Nat.lt_of_le_of_lt (othersLeft_pass_le x p d)
      (drainQueueOnce_lt hp hd hfits hnext hc hcm hmx)
  by_cases hhead : heads .normal x d.store p = true
  · obtain ⟨item, rest, hdue, hx⟩ := (heads_iff ..).mp hhead
    obtain ⟨outcome, s', htouch, hrun⟩ :=
      drainItems_stuck .normal (rest.take 19) hx hp.stuck hd
    have hqueue : drainQueueOnce .normal outboundDrainBatchSize p d =
        drainItems .normal p (item :: rest.take 19) d := by
      rw [drainQueueOnce_peeked _ _ _ _ (hp.peeks .normal), hdue,
        outboundDrainBatchSize, List.take_succ_cons]
    have hattachment {c : OutboxRow} {m : Nat}
        (hended : drainQueueOnce .normal outboundDrainBatchSize p d =
          (true, ⟨s', ⟨x, outcome⟩ :: d.turns⟩))
        (hc : c ∈ dueCommands .attachment (p.peekEnv .attachment).now
          d.store.outbox)
        (hcm : c.messageId = some m) (hmx : m ≠ x) :
        othersLeft x (drainOutboundQueues d p).store < othersLeft x d.store := by
      rw [drainOutboundQueues_of_normal hended]
      have hafter := attachments_after_normal hhead htouch (c := c)
      have hquiet : heads .attachment x s' p = true →
          way.exitIn .attachment x s' = .next := by
        intro hheads
        obtain ⟨item', rest', hdue', hx'⟩ := (heads_iff ..).mp hheads
        have hmem := (attachments_after_normal hhead htouch (c := item')).mp
          (hdue' ▸ List.mem_cons_self)
        exact absurd hx' hmem.2
      have hlt := drainQueueOnce_lt hp
        (reflects_turn s₀ d x _ _ outcome s' hd htouch) hfits hquiet
        (hafter.mpr ⟨hc, by rw [hcm]; simpa using hmx⟩) hcm hmx
      exact Nat.lt_of_lt_of_le hlt (htouch.othersLeft_le x)
    cases hexit : way.exitIn .normal x d.store with
    | fail =>
        simp [stalls, hhead, hexit] at hmoves
    | stop =>
        rw [hexit] at hrun
        simp only [stalls, hhead, hexit, Bool.true_and, Bool.or_eq_false_iff] at hmoves
        have hsome : quiet .attachment d.store p = false := by simpa using hmoves.1
        cases hatt : dueCommands .attachment (p.peekEnv .attachment).now
            d.store.outbox with
        | nil =>
            rw [(quiet_iff ..).mpr hatt] at hsome
            cases hsome
        | cons a attachments =>
            have ha : a ∈ dueCommands .attachment (p.peekEnv .attachment).now
                d.store.outbox := hatt ▸ List.mem_cons_self
            obtain ⟨k, hk⟩ := due_messageId (mem_dueCommands.mp ha).2
            refine hattachment (hqueue.trans hrun) ha hk ?_
            rintro rfl
            have hself := attachments_after_normal hhead
              (.refl k (p.errorText k) 0 d.store) (c := a)
            exact (hself.mp ha).2 hk
    | next =>
        cases kind with
        | normal => exact hnormal (fun _ => hexit) hc hcm hmx
        | attachment =>
            cases rest with
            | nil =>
                rw [hexit] at hrun
                exact hattachment (hqueue.trans hrun) hc hcm hmx
            | cons second rest =>
                obtain ⟨k, hk, hkx⟩ := second_ne hdue hx
                refine hnormal (c := second) (fun _ => hexit) ?_ hk hkx
                rw [hdue]
                exact List.mem_cons_of_mem _ List.mem_cons_self
  · cases kind with
    | normal => exact hnormal (fun h => absurd h hhead) hc hcm hmx
    | attachment =>
        cases hdue : dueCommands .normal (p.peekEnv .normal).now
            d.store.outbox with
        | nil =>
            have hended : drainQueueOnce .normal outboundDrainBatchSize p d =
                (true, d) := by
              rw [drainQueueOnce_peeked _ _ _ _ (hp.peeks .normal), hdue]
              rfl
            rw [drainOutboundQueues_of_normal hended]
            refine drainQueueOnce_lt hp hd hfits ?_ hc hcm hmx
            intro hheads
            have hquiet := (quiet_iff .normal d.store p).mpr hdue
            simpa [stalls, hquiet, hheads, hhead] using hmoves
        | cons item rest =>
            have hitem : item ∈ dueCommands .normal (p.peekEnv .normal).now
                d.store.outbox := hdue ▸ List.mem_cons_self
            obtain ⟨k, hk⟩ := due_messageId (mem_dueCommands.mp hitem).2
            refine hnormal (fun h => absurd h hhead) hitem hk ?_
            rintro rfl
            exact hhead ((heads_iff ..).mpr ⟨item, rest, hdue, hk⟩)

/-- A stalled pass takes the turn of the stuck command and no other. -/
theorem outcomesOf_of_stalls
    {d : Drain} {m : Nat}
    (hp : OneStuck way x s₀ start p) (hd : Reflects s₀ d)
    (hstalls : stalls way x d.store p = true) (hmx : m ≠ x) :
    (drainOutboundQueues d p).outcomesOf m = d.outcomesOf m := by
  have hturn (s' : Store) (outcome : Outcome) :
      (Drain.mk s' (⟨x, outcome⟩ :: d.turns)).outcomesOf m = d.outcomesOf m := by
    rw [outcomesOf_cons, if_neg hmx]
    rfl
  have htail (kind : QueueKind) (item : OutboxRow) (rest : List OutboxRow)
      (hdue : dueCommands kind (p.peekEnv kind).now d.store.outbox =
        item :: rest) :
      drainQueueOnce kind outboundDrainBatchSize p d =
        drainItems kind p (item :: rest.take 19) d := by
    rw [drainQueueOnce_peeked _ _ _ _ (hp.peeks kind), hdue,
      outboundDrainBatchSize, List.take_succ_cons]
  rw [stalls, Bool.or_eq_true, Bool.and_eq_true, Bool.and_eq_true,
    Bool.and_eq_true] at hstalls
  rcases hstalls with ⟨hhead, hexit⟩ | ⟨⟨hquiet, hhead⟩, hexit⟩
  · obtain ⟨item, rest, hdue, hx⟩ := (heads_iff ..).mp hhead
    obtain ⟨outcome, s', htouch, hrun⟩ :=
      drainItems_stuck .normal (rest.take 19) hx hp.stuck hd
    have hqueue := htail .normal item rest hdue
    rw [Bool.or_eq_true, Bool.and_eq_true, beq_iff_eq, beq_iff_eq] at hexit
    rcases hexit with hfail | ⟨hstop, hnone⟩
    · rw [hfail] at hrun
      rw [drainOutboundQueues, drainNormalQueueOnce, hqueue, hrun]
      exact hturn s' outcome
    · rw [hstop] at hrun
      have hempty : dueCommands .attachment (p.peekEnv .attachment).now
          s'.outbox = [] := by
        rw [List.eq_nil_iff_forall_not_mem]
        intro c hc
        have hbefore := ((attachments_after_normal hhead htouch).mp hc).1
        rw [(quiet_iff ..).mp hnone] at hbefore
        cases hbefore
      rw [drainOutboundQueues_of_normal (hqueue.trans hrun),
        drainQueueOnce_peeked _ _ _ _ (hp.peeks .attachment), hempty]
      exact hturn s' outcome
  · obtain ⟨item, rest, hdue, hx⟩ := (heads_iff ..).mp hhead
    obtain ⟨outcome, s', htouch, hrun⟩ :=
      drainItems_stuck .attachment (rest.take 19) hx hp.stuck hd
    have hended : drainQueueOnce .normal outboundDrainBatchSize p d =
        (true, d) := by
      rw [drainQueueOnce_peeked _ _ _ _ (hp.peeks .normal),
        (quiet_iff ..).mp hquiet]
      rfl
    rw [drainOutboundQueues_of_normal hended, htail .attachment item rest hdue,
      hrun]
    cases hexit' : way.exitIn .attachment x d.store with
    | next => simp [hexit'] at hexit
    | stop => exact hturn s' outcome
    | fail => exact hturn s' outcome

/-- How many passes of the run are not stalled. -/
def unstalled (way : StuckWay) (x : Nat) : Drain → List DrainPass → Nat
  | _, [] => 0
  | d, p :: passes =>
      (if stalls way x d.store p then 0 else 1) +
        unstalled way x (drainOutboundQueues d p) passes

theorem attempted_of_unstalled
    {d : Drain} {passes : List DrainPass} {c : OutboxRow} {kind : QueueKind}
    {m : Nat}
    (hpasses : ∀ p ∈ passes, OneStuck way x s₀ start p)
    (hfits : ∀ n, n ≠ x → typeStored s₀ n)
    (hd : Reflects s₀ d) (huntouched : Untouched s₀ d)
    (hcount : othersLeft x d.store ≤ unstalled way x d passes)
    (hc : c ∈ s₀.outbox.rows) (hdue : c.due kind.commandType start = true)
    (hcm : c.messageId = some m) (hmx : m ≠ x) :
    (run drainOutboundQueues d passes).outcomesOf m ≠ [] := by
  induction passes generalizing d with
  | nil =>
      intro hnone
      have hmem := huntouched c hc m hcm hnone
      have hpos : 0 < othersLeft x d.store :=
        List.countP_pos_iff.mpr ⟨c, hmem, by simp [hcm, hmx]⟩
      have hzero : othersLeft x d.store ≤ 0 := hcount
      omega
  | cons p passes ih =>
      by_cases hattempted : d.outcomesOf m = []
      · have hp := hpasses p List.mem_cons_self
        have hle : othersLeft x (drainOutboundQueues d p).store ≤
            othersLeft x d.store :=
          (othersLeft_turn x _).drainOutboundQueues p (Nat.le_refl _)
        have hnow : c ∈ dueCommands kind (p.peekEnv kind).now d.store.outbox := by
          refine mem_dueCommands.mpr ⟨huntouched c hc m hcm hattempted, ?_⟩
          have hclock := hp.clock kind
          simp only [OutboxRow.due, Bool.and_eq_true, decide_eq_true_eq] at hdue ⊢
          exact ⟨⟨hdue.1.1, Int.le_trans hdue.1.2 hclock⟩, hdue.2⟩
        refine ih (fun q hq => hpasses q (List.mem_cons_of_mem _ hq))
          ((reflects_turn s₀).drainOutboundQueues p hd)
          ((untouched_turn s₀).drainOutboundQueues p huntouched) ?_
        rw [unstalled] at hcount
        cases hstalls : stalls way x d.store p with
        | true =>
            rw [if_pos hstalls] at hcount
            omega
        | false =>
            have hlt :=
              othersLeft_lt_of_not_stalls hp hd hfits hstalls hnow hcm hmx
            rw [if_neg (by simp [hstalls])] at hcount
            omega
      · exact (attempted_turn m).run
          ((attempted_turn m).drainOutboundQueues p hattempted) passes

theorem unattempted_of_stalled
    {d : Drain} {passes : List DrainPass} {m : Nat}
    (hpasses : ∀ p ∈ passes, OneStuck way x s₀ start p)
    (hd : Reflects s₀ d) (hcount : unstalled way x d passes = 0) (hmx : m ≠ x) :
    (run drainOutboundQueues d passes).outcomesOf m = d.outcomesOf m := by
  induction passes generalizing d with
  | nil =>
      rfl
  | cons p passes ih =>
      have hp := hpasses p List.mem_cons_self
      rw [unstalled] at hcount
      cases hstalls : stalls way x d.store p with
      | true =>
          rw [run_cons, ih (fun q hq => hpasses q (List.mem_cons_of_mem _ hq))
            ((reflects_turn s₀).drainOutboundQueues p hd) (by omega)]
          exact outcomesOf_of_stalls hp hd hstalls hmx
      | false =>
          rw [if_neg (by simp [hstalls])] at hcount
          omega

/--
One command never gets through, the others can be sent.  After as many passes
that are not stalled as there are other commands, every other command that was
due has had its turn; while all passes are stalled none has.  In every such run
the queue and the status of a message are what its own outcomes made of them.
-/
theorem stuck_command_lets_others_pass
    (way : StuckWay) (x : Nat) (s : Store) (start : Int)
    (passes : List DrainPass)
    (hpasses : ∀ p ∈ passes, OneStuck way x s start p)
    (hfits : ∀ n, n ≠ x → typeStored s n) :
    Reflects s (run drainOutboundQueues ⟨s, []⟩ passes) ∧
      (othersLeft x s ≤ unstalled way x ⟨s, []⟩ passes →
        ∀ c ∈ s.outbox.rows, ∀ (kind : QueueKind) (m : Nat),
          c.due kind.commandType start = true → c.messageId = some m → m ≠ x →
            (run drainOutboundQueues ⟨s, []⟩ passes).outcomesOf m ≠ []) ∧
      (unstalled way x ⟨s, []⟩ passes = 0 →
        ∀ m, m ≠ x →
          (run drainOutboundQueues ⟨s, []⟩ passes).outcomesOf m = []) := by
  refine ⟨(reflects_turn s).run (.start s) passes, ?_, ?_⟩
  · intro hcount c hc kind m hdue hcm hmx
    have huntouched : Untouched s ⟨s, []⟩ := fun c hc _ _ _ => hc
    exact attempted_of_unstalled hpasses hfits (.start s) huntouched hcount hc
      hdue hcm hmx
  · intro hcount m hmx
    rw [unattempted_of_stalled hpasses (.start s) hcount hmx]
    rfl

end Passes

section Sample

/-- Message 1 of the given type, message 2, and attachment 3, all queued. -/
def queuedStore (messageType : Int) : Store :=
  (do
    let _ ← createLocalMessageQueued
      { NewMessage.text 10 1 "one" with messageType := messageType } 11
      "message" [] none
    let _ ← createLocalMessageQueued (.text 10 1 "two") 12 "message" [] none
    createLocalMessageQueued (.text 10 1 "three") 13 "attachment" [] none :
      StoreM Nat).after (Env.calm 0) Store.empty

/-- The server accepts every message but message 1. -/
def samplePass (result : SendResult) (now : Int) : DrainPass where
  peekEnv _ := .calm now
  commandEnv _ := .calm now
  fresh _ := 99
  encodes _ := true
  sendResult m := if m = 1 then result else .accepted (900 + m) 7
  errorText _ := "refused"

theorem byRowid_queued (messageType : Int) :
    (queuedStore messageType).message.byRowid 1 =
      some (({ NewMessage.text 10 1 "one" with
        messageType := messageType } : NewMessage).toRow 11 1 0 1) := by
  rfl

theorem dueCommands_queued (messageType now : Int) (hnow : 0 ≤ now) :
    dueCommands .normal now (queuedStore messageType).outbox =
      [OutboxRow.pending (.msg 11) "message" 1 10 [] none 0 1,
        OutboxRow.pending (.msg 12) "message" 2 10 [] none 0 2] := by
  have hrows : (queuedStore messageType).outbox.rows =
      [OutboxRow.pending (.msg 11) "message" 1 10 [] none 0 1,
        OutboxRow.pending (.msg 12) "message" 2 10 [] none 0 2,
        OutboxRow.pending (.msg 13) "attachment" 3 10 [] none 0 3] := rfl
  unfold dueCommands
  rw [hrows]
  simp [OutboxRow.due, OutboxRow.pending, QueueKind.commandType, hnow,
    OutboxRow.Before]

/-- After finitely many passes the other due commands have had their turn. -/
def LetsOthersPass (way : StuckWay) (x : Nat) (s : Store) (start : Int) : Prop :=
  ∃ enough, ∀ passes : List DrainPass, enough ≤ passes.length →
    (∀ p ∈ passes, OneStuck way x s start p) →
    ∀ c ∈ s.outbox.rows, ∀ (kind : QueueKind) (m : Nat),
      c.due kind.commandType start = true → c.messageId = some m → m ≠ x →
        (run drainOutboundQueues ⟨s, []⟩ passes).outcomesOf m ≠ []

/-- The error of the builder leaves everything as it is. -/
theorem drain_unbuildable (now : Int) (hnow : 0 ≤ now) (turns : List Turn) :
    drainOutboundQueues ⟨queuedStore (-1), turns⟩
        (samplePass (.accepted 901 7) now) =
      ⟨queuedStore (-1), ⟨1, .unwritten⟩ :: turns⟩ := by
  rw [drainOutboundQueues, drainNormalQueueOnce,
    drainQueueOnce_peeked _ _ _ _ rfl,
    show ((samplePass (.accepted 901 7) now).peekEnv .normal).now = now from rfl,
    dueCommands_queued (-1) now hnow]
  rfl

/-- A message of type -1 at the head of the normal queue. -/
theorem unbuildable_head_blocks :
    ¬ LetsOthersPass .unbuildable 1 (queuedStore (-1)) 0 := by
  rintro ⟨enough, h⟩
  let passes := (List.range enough).map
    (fun n : Nat => samplePass (.accepted 901 7) (15000 * n))
  have hpasses : ∀ p ∈ passes, OneStuck .unbuildable 1 (queuedStore (-1)) 0 p := by
    intro p hp
    obtain ⟨n, -, rfl⟩ := List.mem_map.mp hp
    have hnow : 0 ≤ 15000 * (n : Int) := by omega
    refine ⟨fun _ => hnow, fun _ => rfl, fun m hm => ?_, ?_⟩
    · exact ⟨⟨_, rfl⟩, rfl, 900 + m, 7, if_neg hm⟩
    · refine ⟨⟨_, rfl⟩, ⟨901, 7, rfl⟩, Or.inl ?_⟩
      intro row hrow
      rw [byRowid_queued] at hrow
      cases hrow
      rfl
  have hruns (ns : List Nat) (turns : List Turn) :
      (run drainOutboundQueues ⟨queuedStore (-1), turns⟩
        (ns.map (fun n : Nat => samplePass (.accepted 901 7) (15000 * n)))
          ).outcomesOf 2 = (Drain.mk (queuedStore (-1)) turns).outcomesOf 2 := by
    induction ns generalizing turns with
    | nil =>
        rfl
    | cons n ns ih =>
        rw [List.map_cons, run_cons, drain_unbuildable _ (by omega), ih,
          outcomesOf_cons]
        rfl
  have hdue : OutboxRow.pending (.msg 12) "message" 2 10 [] none 0 2 ∈
      (queuedStore (-1)).outbox.rows := by
    decide +kernel
  exact h passes (by simp [passes]) hpasses _ hdue .normal 2 (by decide) rfl
    (by decide) (hruns _ [])

/-- The server refuses message 1; a second pass is not needed. -/
theorem refused_head_lets_others_pass :
    (run drainOutboundQueues ⟨queuedStore 1, []⟩
      [samplePass (.failed false) 0, samplePass (.failed false) 15000]
      ).outcomesOf 3 ≠ [] := by
  have hpasses : ∀ p ∈ [samplePass (.failed false) 0,
      samplePass (.failed false) 15000],
      OneStuck .rejected 1 (queuedStore 1) 0 p := by
    have hstored : typeStored (queuedStore 1) 1 := by
      intro row hrow
      rw [byRowid_queued] at hrow
      cases hrow
      rfl
    intro p hp
    rcases List.mem_pair.mp hp with rfl | rfl
    · exact ⟨fun _ => Int.le_refl 0, fun _ => rfl,
        fun m hm => ⟨⟨_, rfl⟩, rfl, 900 + m, 7, if_neg hm⟩,
        ⟨_, rfl⟩, rfl, hstored, rfl⟩
    · exact ⟨fun _ => show (0 : Int) ≤ 15000 by decide, fun _ => rfl,
        fun m hm => ⟨⟨_, rfl⟩, rfl, 900 + m, 7, if_neg hm⟩,
        ⟨_, rfl⟩, rfl, hstored, rfl⟩
  have hfits : ∀ n, n ≠ 1 → typeStored (queuedStore 1) n := by
    intro n _ row hrow
    have hmem := ((Table.byRowid_eq_some_iff _ _ _).mp hrow).1
    have hall : ∀ r ∈ (queuedStore 1).message.rows,
        typeFits r.messageType = true := by
      decide +kernel
    exact hall row hmem
  exact (stuck_command_lets_others_pass .rejected 1 (queuedStore 1) 0 _ hpasses
    hfits).2.1 (by decide +kernel)
      (OutboxRow.pending (.msg 13) "attachment" 3 10 [] none 0 3)
      (by decide +kernel) .attachment 3 (by decide) rfl (by decide)

end Sample

end PrivchatSdk
