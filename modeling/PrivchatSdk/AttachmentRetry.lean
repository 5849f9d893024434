import PrivchatSdk.AttachmentAttempt

/-!
# Retries of a queued image or video

A queued attachment is attempted again until an attempt is settled: acknowledged,
reconciled, rejected, or left with its command for the next one.

The body of the message is read at the path that is its content, and the content
is overwritten with the content that was sent before the acknowledgement is
stored.  An attempt that starts on the overwritten content finds no body, and
rejects a message that the server has (`accepted_then_rejected`).  And a video
whose own directory is its source copies its thumbnail onto itself, which cuts
it to nothing (`video_thumb_cut`).  In every run whose attempts meet neither, nor
the other conditions of `AttemptSafe`, the thumbnail and the body stay the same
and an accepted message ends as sent (`attempts_resume`).
-/

namespace PrivchatSdk

open StatementExec RelTable EventRun

section Settle

/-- The message is sent, and its command is gone. -/
def Store.SentRow (s : Store) (m : Nat) : Prop :=
  s.attachmentCommand m = none ∧
    ∃ row, s.message.byRowid m = some row ∧ row.status = 2 ∧
      row.serverMessageId ≠ none

/-- The statements of `outbox_reject`. -/
def rejectContexts : List String :=
  ["outbox reject begin tx", "outbox reject mark message",
    "outbox reject delete row", "outbox reject commit"]

/-- How an attempt is settled. -/
inductive SettleEnd
    (env : Env) (m : Nat) (retryable : Bool) (s s' : Store) : Prop
  | waits
      (hrows : s'.message = s.message)
      (hcommand : (s'.attachmentCommand m).map OutboxRow.payload =
        (s.attachmentCommand m).map OutboxRow.payload)
  | sent (hsent : s'.SentRow m)
  | rejected
      (hfinal : retryable = false)
      (hunknown : ∀ row, s.message.byRowid m = some row →
        row.serverMessageId = none)
      (hcommits : ∀ context ∈ rejectContexts, env.fault context = false)
      (hcommand : s'.attachmentCommand m = none)

variable {m : Nat} {env : Env} {s s' : Store}

theorem attachmentCommand_withoutCommand
    (houtbox : s'.outbox = s.withoutCommand m) : s'.attachmentCommand m = none := by
  unfold Store.attachmentCommand
  rw [houtbox, List.find?_eq_none]
  intro o ho
  have hother := ((Table.mem_deleteWhere _ _ o).mp ho).2
  simp only [beq_eq_false_iff_ne] at hother
  simp [hother]

/-- A noted retry keeps the command and its payload. -/
theorem attachmentCommand_retried
    {nextAttemptAt now : Int} {text : String}
    (houtbox : s'.outbox = s.retried m nextAttemptAt text now) :
    (s'.attachmentCommand m).map OutboxRow.payload =
      (s.attachmentCommand m).map OutboxRow.payload := by
  have hrows : s'.outbox.rows = s.outbox.rows.map (fun o =>
      if o.messageId == some m then
        { o with
          retryCount := o.retryCount + 1
          nextAttemptAt := nextAttemptAt
          lastError := some text
          updatedAt := now }
      else o) := by
    rw [houtbox]
    rfl
  unfold Store.attachmentCommand
  rw [hrows, List.find?_map, Option.map_map]
  congr 1
  · funext o
    by_cases ho : o.messageId = some m
    · simp [ho]
    · simp [ho]
  · congr 1
    funext o
    by_cases ho : o.messageId = some m
    · simp [ho]
    · simp [ho]

theorem noteRetry_end
    (p : DrainPass) (m : Nat) (env : Env) (s : Store) (retryCount : Int)
    (retryable : Bool) :
    ∃ outcome s', noteRetry p m retryCount env s = (.ok outcome, s') ∧
      SettleEnd env m retryable s s' := by
  rcases noteRetry_cases p m retryCount env s with hnote | ⟨nextAttemptAt, hnote⟩
  · exact ⟨.unwritten, s, hnote, .waits rfl rfl⟩
  · exact ⟨.retried nextAttemptAt, _, hnote,
      .waits rfl (attachmentCommand_retried rfl)⟩

/-- The acknowledgement that was stored leaves the message sent. -/
theorem sentRow_of_updated
    {t base : Table MessageRow} {f : MessageRow → MessageRow} {hid}
    {row : MessageRow} (hrow : base.byRowid m = some row)
    (ht : base.update (fun r => Record.rowid r == m) f hid = some t)
    (hstatus : ∀ r, (f r).status = 2) (hsid : ∀ r, (f r).serverMessageId ≠ none) :
    ({ s with message := t, outbox := s.withoutCommand m } : Store).SentRow m := by
  refine ⟨attachmentCommand_withoutCommand rfl, f row, ?_, hstatus row, hsid row⟩
  have hrid : row.id = m := ((Table.byRowid_eq_some_iff _ _ _).mp hrow).2
  rw [byRowid_of_update ht, hrow]
  simp [hrid]

/-- The settlement of an accepted message. -/
theorem commitAccepted_end
    (p : DrainPass) (m : Nat) (env : Env) (s : Store) (retryCount : Int)
    (serverMessageId : Nat) (messageSeq : Int) :
    ∃ res s', commitAccepted p m retryCount serverMessageId messageSeq env s =
        (.ok res, s') ∧
      SettleEnd env m true s s' ∧
      (∀ now row, env = .calm now → s.message.byRowid m = some row →
        s'.SentRow m) := by
  unfold commitAccepted
  rw [Exec.attempt_bind]
  cases hrun : outboxAckSent m serverMessageId messageSeq env s with
  | mk res s' =>
  cases outboxAckSent_outcome hrun with
  | failed e he =>
      obtain ⟨outcome, s₁, hnote, hend⟩ :=
        noteRetry_end p m env s retryCount true
      refine ⟨(outcome, .fail), s₁,
        Exec.bind_ok.mpr ⟨outcome, s₁, hnote, rfl⟩, hend, ?_⟩
      rintro now row rfl hrow
      obtain ⟨s₂, hok⟩ := outboxAckSent_stored serverMessageId messageSeq now hrow
      rw [hrun] at hok
      cases hok
  | acked row t hrow ht =>
      have hdedupe : (s.dedupe serverMessageId m).byRowid m = some row := by
        rw [byRowid_dedupe_self, hrow]
      have hsent := sentRow_of_updated (s := s) hdedupe ht
        (fun _ => rfl) (fun _ => by simp [MessageRow.acknowledge])
      exact ⟨(.sent, .next), _, rfl, .sent hsent, fun _ _ _ _ => hsent⟩

/-- The poll finds a server id that the row has, unless the read fails. -/
theorem awaitServerMessageId_found
    {row : MessageRow} {sid : Nat} (attempts : Nat)
    (hget : env.fault "get message by id" = false)
    (hrow : s.message.byRowid m = some row)
    (hsid : row.serverMessageId = some sid) :
    awaitServerMessageId m (attempts + 1) env s = (.ok (some sid), s) := by
  have hquery : getMessageById m env s =
      (.ok (some (row.toStored (s.messageExtra.lookup row.id))), s) :=
    query_ok.mpr ⟨hget, by rw [Store.storedMessage, hrow]; rfl, rfl⟩
  unfold awaitServerMessageId
  rw [Exec.attempt_bind, hquery]
  simp [MessageRow.toStored, hsid]

theorem outboxReject_faultless
    {status : Int} {u : PUnit}
    (hrun : outboxReject m status env s = (.ok u, s')) :
    ∀ context ∈ rejectContexts, env.fault context = false := by
  obtain ⟨hbegin, hcommit⟩ := withTx_marks hrun
  have hbody := withTx_ok hrun
  rw [nowMs_bind] at hbody
  obtain ⟨n, s₁, hmark, hrest⟩ := Exec.bind_ok.mp hbody
  have hwritten := (modifyMessage_ok.mp hmark).1
  have hdelete := (exec_ok.mp hrest).1
  simpa [rejectContexts] using ⟨hbegin, hwritten, hdelete, hcommit⟩

/-- The settlement of a failed attempt. -/
theorem settleFailed_end
    (p : DrainPass) (m : Nat) (env : Env) (s : Store) (retryCount : Int)
    (retryable : Bool) (hget : env.fault "get message by id" = false) :
    ∃ res s', settleFailed p m retryCount retryable env s = (.ok res, s') ∧
      SettleEnd env m retryable s s' := by
  obtain ⟨landed, hawait, hlanded⟩ := awaitServerMessageId_run m 12 env s
  unfold settleFailed
  rw [Exec.bind_run, hawait]
  cases landed with
  | some sid =>
      obtain ⟨row, hrow, -⟩ := hlanded sid rfl
      dsimp only
      rw [Exec.attempt_bind]
      cases hrun : outboxReconcileSent m sid env s with
      | mk res s' =>
      cases outboxReconcileSent_outcome hrun with
      | failed e =>
          exact ⟨(.unwritten, .stop), _, rfl, .waits rfl rfl⟩
      | reconciled t ht =>
          exact ⟨(.sent, .next), _, rfl, .sent (sentRow_of_updated hrow ht
            (fun _ => rfl) (fun _ => by simp [MessageRow.reconcile]))⟩
  | none =>
      cases retryable with
      | true =>
          obtain ⟨outcome, s₁, hnote, hend⟩ :=
            noteRetry_end p m env s retryCount true
          exact ⟨(outcome, .stop), s₁,
            Exec.bind_ok.mpr ⟨outcome, s₁, hnote, rfl⟩, hend⟩
      | false =>
          have hunknown : ∀ row, s.message.byRowid m = some row →
              row.serverMessageId = none := by
            intro row hrow
            cases hsid : row.serverMessageId with
            | none => rfl
            | some sid =>
                rw [awaitServerMessageId_found 11 hget hrow hsid] at hawait
                cases hawait
          dsimp only
          rw [if_neg Bool.false_ne_true, Exec.attempt_bind]
          cases hrun : outboxReject m 3 env s with
          | mk res s' =>
          rcases outboxReject_cases hrun with ⟨e, rfl, rfl⟩ | ⟨rfl, rfl⟩
          · exact ⟨(.unwritten, .stop), _, rfl, .waits rfl rfl⟩
          · exact ⟨(.rejected, .next), _, rfl, .rejected rfl hunknown
              (outboxReject_faultless hrun) (attachmentCommand_withoutCommand rfl)⟩

end Settle

section Runs

variable (h : MediaHost) (m : Nat)

/-- The columns of the row that an attempt reads. -/
def MessageRow.attachment (r : MessageRow) : Attachment where
  messageId := r.id
  fromUid := r.fromUid
  messageType := r.messageType
  content := r.content
  createdAt := r.createdAt
  extra := r.extra

/-- An image or video in the queue, before its first attempt. -/
structure Queued (a : Attachment) (d : Device) : Prop where
  media : a.fileType = .image ∨ a.fileType = .video
  row : ∃ row, d.store.message.byRowid m = some row ∧ row.attachment = a ∧
    row.status = 1
  command : d.store.attachmentCommand m ≠ none
  reads : d.reads = []
  accepted : d.accepted = false

/-- What each attempt must do, between the states around it. -/
structure AttemptSound (d : Device) (env : SendEnv) (d' : Device) : Prop where
  /-- A decodable thumbnail keeps its bytes, and is the one uploaded. -/
  kept : ∀ row, d.store.message.byRowid m = some row →
    row.attachment.ThumbsKept h d.files d'.files
  uploaded : ∀ row, d.store.message.byRowid m = some row →
    ∀ t, row.attachment.IsThumbnail h d.files t →
      (d'.thumbs = d.thumbs ∨ d'.thumbs = t :: d.thumbs) ∧
        (d'.bodies = d.bodies ∨ ∃ body, d'.bodies = (some t, body) :: d.bodies)
  /-- All attempts read the same body. -/
  body : ∀ x ∈ d'.reads, ∀ y ∈ d'.reads, x = y
  /-- An attempt of an accepted message does not mark it failed. -/
  notFailed : d.accepted = true → d.store.attachmentCommand m ≠ none →
    ∀ row, d'.store.message.byRowid m = some row → row.status ≠ 3
  /-- If all its steps work, it leaves the message sent. -/
  sent : d.accepted = true → d.store.attachmentCommand m ≠ none →
    env.Works m → d'.store.SentRow m

/-- Each attempt of the run does what it must. -/
def SoundRun (d : Device) (envs : List SendEnv) : Prop :=
  Guarded (Device.attempt h m)
    (fun d env => AttemptSound h m d env (d.attempt h m env)) d envs

/-- The rejection of the message does not commit. -/
def SendEnv.RejectFails (env : SendEnv) : Prop :=
  ∃ context ∈ rejectContexts, (env.pass.commandEnv m).fault context = true

/--
The attempt of a command meets none of the ways to go wrong: it starts on the
content the message was queued with, or has the body from its command and can
send it; it writes over neither the source nor a decodable thumbnail; and after
an acceptance that the row does not know of it meets no failure that is not
retryable, unless the rejection fails as well.
-/
structure AttemptSafe
    (a : Attachment) (command : OutboxRow) (row : MessageRow)
    (d : Device) (env : SendEnv) : Prop where
  content : command.payload = [] → row.content = a.content
  carried : command.payload ≠ [] →
    (row.attachment.fileType = .image ∨ row.attachment.fileType = .video) ∧
      (d.accepted = true → row.attachment.Ready h command.payload d.files)
  source : row.attachment.SourceSafe h command.payload env
  thumbnail : ∀ body, row.attachment.source command.payload d.files = some body →
    row.attachment.ThumbnailSafe h env d.files body
  refusal : d.accepted = true → row.serverMessageId = none →
    env.Mild row.attachment ∨ env.RejectFails m

/-- The attempt of the next event is safe, if there is one. -/
def Device.Safe (a : Attachment) (d : Device) (env : SendEnv) : Prop :=
  ∀ command row, d.store.attachmentCommand m = some command →
    d.store.message.byRowid m = some row → AttemptSafe h m a command row d env

/-- What holds between the attempts of a queued message. -/
structure RetryInv
    (a : Attachment) (carried : Bytes) (body : Option Bytes) (d : Device) :
    Prop where
  reads : ∀ x ∈ d.reads, x = body
  row : d.store.attachmentCommand m ≠ none →
    ∃ row, d.store.message.byRowid m = some row ∧
      row.attachment = { a with content := row.content } ∧ row.status = 1
  payload : ∀ command, d.store.attachmentCommand m = some command →
    command.payload = carried
  source : d.store.attachmentCommand m ≠ none → a.source carried d.files = body
  ready : d.store.attachmentCommand m ≠ none → carried = [] → d.accepted = true →
    a.Ready h carried d.files

variable {h m} {a : Attachment} {d : Device} {env : SendEnv}

theorem storeHeld_ensureLocalMessageId
    {fresh n : Nat} {senv : Env} {s s' : Store} {row : MessageRow}
    (hrow : s.message.byRowid m = some row)
    (hrun : ensureLocalMessageId m fresh senv s = (.ok n, s')) :
    StoreHeld m s s' := by
  rcases ensureLocalMessageId_ok hrow hrun with ⟨-, -, rfl⟩ | ⟨-, -, rfl⟩
  · exact .refl _ _
  · exact storeHeld_modify m s _ _ _ _ (fun _ => rfl)

/-- An attempt that began after its row was numbered. -/
theorem Attachment.Attempted.of_numbered
    {payload : Bytes} {s : Store} {d' : Device}
    (hheld : StoreHeld a.messageId d.store s)
    (hattempt : a.Attempted h payload { d with store := s } d') :
    a.Attempted h payload d d' where
  store := hheld.trans hattempt.store
  reads := hattempt.reads
  source := hattempt.source
  kept := hattempt.kept
  ready := hattempt.ready
  accepted := hattempt.accepted
  thumbs := hattempt.thumbs
  bodies := hattempt.bodies

/-- How the attempt of a command goes, up to its settlement and with it. -/
inductive AttemptEnd
    (h : MediaHost) (m : Nat) (a : Attachment) (payload : Bytes)
    (d : Device) (env : SendEnv) : Device → Prop
  | unsettled (d' : Device) (hattempt : a.Attempted h payload d d')
      (hnot : ¬ env.Works m) :
      AttemptEnd h m a payload d env d'
  | accepted (d' : Device) (s : Store) (hattempt : a.Attempted h payload d d')
      (hend : SettleEnd (env.pass.commandEnv m) m true d'.store s)
      (hsent : ∀ now row, env.pass.commandEnv m = .calm now →
        d'.store.message.byRowid m = some row → s.SentRow m) :
      AttemptEnd h m a payload d env { d' with store := s }
  | failed (d' : Device) (s : Store) (e : SendError)
      (hattempt : a.Attempted h payload d d')
      (hexcused : (Halt.stop e).Excused env a (a.Ready h payload d.files))
      (hend : SettleEnd (env.pass.commandEnv m) m e.isRetryable d'.store s) :
      AttemptEnd h m a payload d env { d' with store := s }

/-- An operation of the database at the end of an attempt. -/
theorem settled_onStore
    {α : Type} {x : StoreM α} {res : α} {s : Store}
    (hrun : x (env.pass.commandEnv m) d.store = (.ok res, s)) :
    (do
      let _ ← onStore m x
      pure .unit : SendM PUnit) env d = (.ok .unit, { d with store := s }) := by
  rw [Exec.bind_run]
  unfold onStore
  rw [hrun]
  rfl

/-- The settlement after an attempt. -/
theorem settleAttachment_end
    {payload : Bytes} {x : SendM SendMessageResponse} {d₁ : Device}
    (retryCount : Int)
    (hget : (env.pass.commandEnv m).fault "get message by id" = false)
    (hx : x.Ensures env d₁ (fun _ d' => a.Attempted h payload d d')
      (fun halt d' => a.Attempted h payload d d' ∧
        halt.Excused env a (a.Ready h payload d.files))) :
    AttemptEnd h m a payload d env
      (settleAttachment m retryCount x env d₁).2 := by
  unfold settleAttachment
  unfold Exec.Ensures at hx
  cases hrun : x env d₁ with
  | mk res d' =>
  rw [hrun] at hx
  cases res with
  | ok response =>
      obtain ⟨res, s, hcommit, hend, hsent⟩ := commitAccepted_end env.pass m
        (env.pass.commandEnv m) d'.store retryCount response.serverMessageId
        response.messageSeq
      dsimp only
      rw [settled_onStore hcommit]
      exact .accepted d' s hx hend hsent
  | error halt =>
      obtain ⟨hattempt, hexcused⟩ := hx
      cases halt with
      | crash =>
          refine .unsettled d' hattempt (fun hworks => ?_)
          exact hexcused hworks.crash
      | stop e =>
          obtain ⟨res, s, hsettle, hend⟩ := settleFailed_end env.pass m
            (env.pass.commandEnv m) d'.store retryCount e.isRetryable hget
          dsimp only
          rw [settled_onStore hsettle]
          exact .failed d' s e hattempt hexcused hend
      | store e =>
          exact hexcused.elim

theorem SendEnv.Works.fault
    (hworks : env.Works m) (context : String) :
    (env.pass.commandEnv m).fault context = false := by
  obtain ⟨now, hcalm⟩ := hworks.database
  rw [hcalm]
  rfl

/-- A safe attempt goes one of these ways. -/
theorem attempt_end
    {command : OutboxRow} {row : MessageRow}
    (hcommand : d.store.attachmentCommand m = some command)
    (hrow : d.store.message.byRowid m = some row)
    (hmedia : row.attachment.fileType = .image ∨ row.attachment.fileType = .video)
    (hsource : row.attachment.SourceSafe h command.payload env)
    (hthumb : ∀ body,
      row.attachment.source command.payload d.files = some body →
        row.attachment.ThumbnailSafe h env d.files body) :
    AttemptEnd h m row.attachment command.payload d env (d.attempt h m env) := by
  have hid : row.attachment.messageId = m :=
    ((Table.byRowid_eq_some_iff _ _ _).mp hrow).2
  unfold Device.attempt
  rw [hcommand]
  dsimp only
  unfold drainAttachment Exec.after
  rw [Exec.bind_run]
  cases hquery : getMessageById m (env.pass.commandEnv m) d.store with
  | mk res s =>
  cases res with
  | error e =>
      obtain ⟨rfl, -⟩ := query_error hquery
      have hrun : onStore m (getMessageById m) env d = (.error (.store e), d) := by
        unfold onStore
        rw [hquery]
      rw [hrun]
      refine .unsettled d (.refl d) (fun hworks => ?_)
      have hok : getMessageById m (env.pass.commandEnv m) d.store =
          (.ok (d.store.storedMessage m), d.store) :=
        query_ok.mpr ⟨hworks.fault _, rfl, rfl⟩
      rw [hok] at hquery
      cases hquery
  | ok found =>
      obtain ⟨hget, hfound, rfl⟩ := query_ok.mp hquery
      rw [Store.storedMessage, hrow] at hfound
      subst hfound
      have hrun : onStore m (getMessageById m) env d =
          (.ok (some (row.toStored (d.store.messageExtra.lookup row.id))), d) := by
        unfold onStore
        rw [hquery]
        rfl
      rw [hrun]
      show AttemptEnd h m row.attachment command.payload d env
        ((onStore m (ensureLocalMessageId m (env.pass.fresh m)) >>= fun _ =>
          settleAttachment m command.retryCount (processOutboundFile h
            (row.toStored (d.store.messageExtra.lookup row.id)).attachment
            command.payload)) env d).2
      rw [Exec.bind_run]
      cases hnumber : ensureLocalMessageId m (env.pass.fresh m)
          (env.pass.commandEnv m) d.store with
      | mk res s =>
      cases res with
      | error e =>
          have hsame := ensureLocalMessageId_error hnumber
          subst hsame
          have hfail : onStore m (ensureLocalMessageId m (env.pass.fresh m)) env d =
              (.error (.store e), d) := by
            unfold onStore
            rw [hnumber]
          rw [hfail]
          refine .unsettled d (.refl d) (fun hworks => ?_)
          obtain ⟨n, s, hok⟩ := ensureLocalMessageId_stored (env.pass.fresh m)
            (hworks.fault _) (hworks.fault _) hrow
          rw [hok] at hnumber
          cases hnumber
      | ok n =>
          have hheld := storeHeld_ensureLocalMessageId hrow hnumber
          have hdone : onStore m (ensureLocalMessageId m (env.pass.fresh m)) env d =
              (.ok n, { d with store := s }) := by
            unfold onStore
            rw [hnumber]
          rw [hdone]
          refine settleAttachment_end command.retryCount hget
            ((processOutboundFile_ensures (d := { d with store := s }) hmedia
              hsource hthumb).mono ?_ ?_)
          · rintro response d' ⟨hattempt, -⟩
            exact .of_numbered (hid ▸ hheld) hattempt
          · rintro halt d' ⟨hattempt, hexcused⟩
            exact ⟨.of_numbered (hid ▸ hheld) hattempt, hexcused⟩

/-- An attempt leaves the columns of the row that it is judged by. -/
theorem Attachment.Attempted.row
    {payload : Bytes} {d' : Device} {row : MessageRow}
    (hrow : d.store.message.byRowid m = some row)
    (hattempt : row.attachment.Attempted h payload d d') :
    ∃ row', d'.store.message.byRowid m = some row' ∧
      row'.attachment = { row.attachment with content := row'.content } ∧
      row'.status = row.status ∧ row'.serverMessageId = row.serverMessageId := by
  have hid : row.attachment.messageId = m :=
    ((Table.byRowid_eq_some_iff _ _ _).mp hrow).2
  have hheld := hattempt.store.row
  rw [hid, hrow, Option.map_some, Option.map_eq_some_iff] at hheld
  obtain ⟨row', hrow', hcolumns⟩ := hheld
  simp only [MessageRow.heldColumns, Prod.mk.injEq] at hcolumns
  obtain ⟨hstatus, hserver, hrid, hfrom, htype, hcreated, hextra⟩ := hcolumns
  refine ⟨row', hrow', ?_, hstatus, hserver⟩
  simp [MessageRow.attachment, hrid, hfrom, htype, hcreated, hextra]

/-- Whether the row has the content it was queued with matters for a path only. -/
theorem Attachment.source_of_carried
    {b : Attachment} {payload : Bytes} (heq : payload = [] → b = a)
    (files : Files) : b.source payload files = a.source payload files := by
  cases payload with
  | nil => rw [heq rfl]
  | cons byte payload => rfl

variable {carried : Bytes} {body : Option Bytes}

/-- The invariant through an attempt, before it is settled. -/
theorem RetryInv.attempted
    {d' : Device} {row : MessageRow} (hinv : RetryInv h m a carried body d)
    (hcommand : d.store.attachmentCommand m ≠ none)
    (hrow : d.store.message.byRowid m = some row)
    (hcolumns : row.attachment = { a with content := row.content })
    (hstatus : row.status = 1) (heq : carried = [] → row.attachment = a)
    (hattempt : row.attachment.Attempted h carried d d') :
    RetryInv h m a carried body d' := by
  have hsource := hinv.source hcommand
  have hsame : d'.store.attachmentCommand m = d.store.attachmentCommand m := by
    unfold Store.attachmentCommand
    rw [hattempt.store.outbox]
  refine ⟨?_, fun _ => ?_, ?_, fun _ => ?_, fun _ hcarried haccepted => ?_⟩
  · intro x hx
    rcases hattempt.reads with hreads | hreads
    · exact hinv.reads x (hreads ▸ hx)
    · rw [hreads, List.mem_cons] at hx
      rcases hx with rfl | hx
      · exact (Attachment.source_of_carried heq _).trans hsource
      · exact hinv.reads x hx
  · obtain ⟨row', hrow', hcolumns', hstatus', -⟩ := hattempt.row hrow
    refine ⟨row', hrow', ?_, hstatus'.trans hstatus⟩
    rw [hcolumns', hcolumns]
  · rw [hsame]
    exact hinv.payload
  · rw [← Attachment.source_of_carried heq, hattempt.source,
      Attachment.source_of_carried heq, hsource]
  · have hrowEq := heq hcarried
    have hready : a.Ready h carried d.files := by
      rcases hattempt.accepted with hwas | ⟨-, hready⟩
      · exact hinv.ready hcommand hcarried (hwas ▸ haccepted)
      · exact hrowEq ▸ hready
    exact hrowEq ▸ hattempt.ready (hrowEq.symm ▸ hready)

/-- The invariant through the settlement. -/
theorem RetryInv.settled
    {senv : Env} {retryable : Bool} {s : Store}
    (hinv : RetryInv h m a carried body d)
    (hend : SettleEnd senv m retryable d.store s) :
    RetryInv h m a carried body { d with store := s } := by
  have hgone : s.attachmentCommand m = none →
      RetryInv h m a carried body { d with store := s } := by
    intro hnone
    refine ⟨hinv.reads, fun hc => absurd hnone hc, fun command hc => ?_,
      fun hc => absurd hnone hc, fun hc => absurd hnone hc⟩
    rw [hnone] at hc
    cases hc
  cases hend with
  | waits hrows hcommand =>
      have hstill : s.attachmentCommand m ≠ none →
          d.store.attachmentCommand m ≠ none := by
        intro hc hnone
        rw [hnone, Option.map_none, Option.map_eq_none_iff] at hcommand
        exact hc hcommand
      refine ⟨hinv.reads, fun hc => ?_, fun command hc => ?_,
        fun hc => hinv.source (hstill hc), fun hc => hinv.ready (hstill hc)⟩
      · rw [hrows]
        exact hinv.row (hstill hc)
      · have hwas : (d.store.attachmentCommand m).map OutboxRow.payload =
            some command.payload := by
          rw [← hcommand, hc, Option.map_some]
        obtain ⟨command', hc', hpayload⟩ := Option.map_eq_some_iff.mp hwas
        rw [← hpayload]
        exact hinv.payload command' hc'
  | sent hsent =>
      exact hgone hsent.1
  | rejected hfinal hunknown hcommits hcommand =>
      exact hgone hcommand

/-- An attempt that was not rejected does not leave the message failed. -/
theorem SettleEnd.notFailed
    {senv : Env} {retryable : Bool} {s s' : Store} {row row' : MessageRow}
    (hend : SettleEnd senv m retryable s s')
    (hrow : s.message.byRowid m = some row) (hstatus : row.status = 1)
    (haccepted : retryable = false → row.serverMessageId = none →
      ∃ context ∈ rejectContexts, senv.fault context = true)
    (hrow' : s'.message.byRowid m = some row') : row'.status ≠ 3 := by
  cases hend with
  | waits hrows hcommand =>
      rw [hrows, hrow, Option.some.injEq] at hrow'
      rw [← hrow', hstatus]
      decide
  | sent hsent =>
      obtain ⟨-, sent, hrowSent, hstatusSent, -⟩ := hsent
      rw [hrowSent, Option.some.injEq] at hrow'
      rw [← hrow', hstatusSent]
      decide
  | rejected hfinal hunknown hcommits hcommand =>
      obtain ⟨context, hin, hfault⟩ := haccepted hfinal (hunknown row hrow)
      rw [hcommits context hin] at hfault
      cases hfault

/-- What one attempt does, once it is known how the message ends. -/
theorem AttemptSound.of_attempted
    {d' : Device} {s : Store} {row : MessageRow}
    (hrow : d.store.message.byRowid m = some row)
    (hattempt : row.attachment.Attempted h carried d d')
    (hinv : RetryInv h m a carried body { d' with store := s })
    (hfailed : d.accepted = true →
      ∀ row, s.message.byRowid m = some row → row.status ≠ 3)
    (hsent : d.accepted = true → env.Works m → s.SentRow m) :
    AttemptSound h m d env { d' with store := s } where
  kept row' hrow' := by
    rw [hrow, Option.some.injEq] at hrow'
    exact hrow' ▸ hattempt.kept
  uploaded row' hrow' t ht := by
    rw [hrow, Option.some.injEq] at hrow'
    subst hrow'
    exact ⟨hattempt.thumbs t ht, hattempt.bodies t ht⟩
  body x hx y hy := (hinv.reads x hx).trans (hinv.reads y hy).symm
  notFailed haccepted _ := hfailed haccepted
  sent haccepted _ := hsent haccepted

/-- What one safe attempt does, between two states of a run. -/
theorem RetryInv.attempt
    (hmedia : a.fileType = .image ∨ a.fileType = .video)
    (hinv : RetryInv h m a carried body d) (hsafe : d.Safe h m a env) :
    RetryInv h m a carried body (d.attempt h m env) ∧
      AttemptSound h m d env (d.attempt h m env) := by
  cases hcommand : d.store.attachmentCommand m with
  | none =>
      have hsame : d.attempt h m env = d := by
        unfold Device.attempt
        rw [hcommand]
      rw [hsame]
      refine ⟨hinv, fun _ _ _ _ _ _ hfile => hfile, fun _ _ _ _ => ⟨.inl rfl, .inl rfl⟩,
        fun x hx y hy => (hinv.reads x hx).trans (hinv.reads y hy).symm,
        fun _ hc => absurd hcommand hc, fun _ hc => absurd hcommand hc⟩
  | some command =>
      have hqueued : d.store.attachmentCommand m ≠ none := by simp [hcommand]
      obtain ⟨row, hrow, hcolumns, hstatus⟩ := hinv.row hqueued
      have hpayload := hinv.payload command hcommand
      have hok := hsafe command row hcommand hrow
      subst hpayload
      have hid : row.attachment.messageId = m :=
        ((Table.byRowid_eq_some_iff _ _ _).mp hrow).2
      have heq : command.payload = [] → row.attachment = a := by
        intro hempty
        rw [hcolumns, hok.content hempty]
      have hkind : row.attachment.fileType = .image ∨
          row.attachment.fileType = .video := by
        by_cases hempty : command.payload = []
        · rw [heq hempty]
          exact hmedia
        · exact (hok.carried hempty).1
      have hready : d.accepted = true →
          row.attachment.Ready h command.payload d.files := by
        intro haccepted
        by_cases hempty : command.payload = []
        · rw [heq hempty]
          exact hinv.ready hqueued hempty haccepted
        · exact (hok.carried hempty).2 haccepted
      have hkeep : ∀ d', row.attachment.Attempted h command.payload d d' →
          RetryInv h m a command.payload body d' :=
        fun d' hattempt => hinv.attempted hqueued hrow hcolumns hstatus heq hattempt
      have hend := attempt_end hcommand hrow hkind hok.source hok.thumbnail
      generalize d.attempt h m env = dEnd at hend ⊢
      cases hend with
      | unsettled d' hattempt hnot =>
          have hinv' := hkeep _ hattempt
          refine ⟨hinv', .of_attempted hrow hattempt hinv' (fun _ row' hrow' => ?_)
            (fun _ hworks => absurd hworks hnot)⟩
          obtain ⟨row₁, hrow₁, -, hstatus₁, -⟩ := hattempt.row hrow
          rw [hrow₁, Option.some.injEq] at hrow'
          rw [← hrow', hstatus₁, hstatus]
          decide
      | accepted d' s hattempt hend hsent =>
          have hinv' := (hkeep _ hattempt).settled hend
          obtain ⟨row₁, hrow₁, -, hstatus₁, -⟩ := hattempt.row hrow
          refine ⟨hinv', .of_attempted hrow hattempt hinv' (fun _ row' hrow' => ?_)
            (fun _ hworks => ?_)⟩
          · exact hend.notFailed hrow₁ (hstatus₁.trans hstatus)
              (fun hfinal => nomatch hfinal) hrow'
          · obtain ⟨now, hcalm⟩ := hworks.database
            exact hsent now row₁ hcalm hrow₁
      | failed d' s e hattempt hexcused hend =>
          have hinv' := (hkeep _ hattempt).settled hend
          obtain ⟨row₁, hrow₁, -, hstatus₁, hserver₁⟩ := hattempt.row hrow
          refine ⟨hinv', .of_attempted hrow hattempt hinv'
            (fun haccepted row' hrow' => ?_) (fun haccepted hworks => ?_)⟩
          · refine hend.notFailed hrow₁ (hstatus₁.trans hstatus)
              (fun hfinal hunknown => ?_) hrow'
            rcases hok.refusal haccepted (hserver₁ ▸ hunknown) with hmild | hfails
            · have hretry := (hexcused (hready haccepted)).2 hmild
              rw [hretry] at hfinal
              cases hfinal
            · exact hfails
          · exact absurd (hid ▸ hworks) (hexcused (hready haccepted)).1

/--
In every run of safe attempts a thumbnail keeps its bytes and is the one uploaded,
all attempts read the same body, and an accepted message is not marked failed but
left sent by the first attempt whose steps all work.
-/
theorem attempts_resume
    (h : MediaHost) (m : Nat) (a : Attachment) (d : Device) (envs : List SendEnv)
    (hqueued : Queued m a d)
    (hsafe : Guarded (Device.attempt h m) (Device.Safe h m a) d envs) :
    SoundRun h m d envs := by
  obtain ⟨command, hcommand⟩ := Option.ne_none_iff_exists'.mp hqueued.command
  refine Guarded.entails
    (RetryInv h m a command.payload (a.source command.payload d.files))
    (fun d env hinv hok => hinv.attempt hqueued.media hok) ?_ hsafe
  refine ⟨?_, fun _ => ?_, ?_, fun _ => rfl, fun _ _ haccepted => ?_⟩
  · rw [hqueued.reads]
    intro x hx
    cases hx
  · obtain ⟨row, hrow, ha, hstatus⟩ := hqueued.row
    refine ⟨row, hrow, ?_, hstatus⟩
    rw [← ha]
    rfl
  · intro command' hcommand'
    rw [hcommand, Option.some.injEq] at hcommand'
    rw [hcommand']
  · rw [hqueued.accepted] at haccepted
    cases haccepted

end Runs

section Sample

/-- Every file that is not empty decodes; thumbnails are encoded with a prefix. -/
def sampleHost : MediaHost where
  userRoot := ["/", "data"]
  yearMonth _ := "202601"
  decodeImage _ bytes := if bytes = [] then none else some (1, 1)
  decode_empty _ := rfl
  encodeThumb _ bytes _ := 0 :: bytes
  hook := none
  asksHost := false
  codec := sampleCodec
  encodeMeta _ := [1]

def sampleInput (messageType : ContentMessageType) (content : String) :
    NewMessage :=
  { NewMessage.text 10 1 content with messageType := messageType.toI32 }

/-- The message is queued, and these are the files. -/
def sampleDevice
    (messageType : ContentMessageType) (content : String) (files : Files) :
    Device where
  store := (createLocalMessageQueued (sampleInput messageType content) 11
    "attachment" [] none).after (Env.calm 0) Store.empty
  files := files
  reads := []
  thumbs := []
  bodies := []
  accepted := false

/-- All steps work, up to the given crash. -/
def sampleEnv (crash : Option Step) : SendEnv where
  pass := samplePass (.accepted 901 7) 0
  ioFault _ := none
  crash := crash
  nowSecs := 0
  mediaJob := none
  uploadThumb := .ok ⟨"5", 0, "thumb", none, 1⟩
  thumbCallback := .ok .unit
  uploadBody := .ok ⟨"6", 0, "body", none, 1⟩
  bodyCallback := .ok .unit
  send := .accepted ⟨901, 7⟩

def sampleRow (messageType : ContentMessageType) (content : String) : MessageRow :=
  (sampleInput messageType content).toRow 11 1 0 1

/-- An image that was picked outside the account's directory. -/
def pickedImage : Device :=
  sampleDevice .image "/pick/a.jpg"
    (fun p => if p = ["/", "pick", "a.jpg"] then some [5, 5] else none)

/-- A video whose source is its own directory, with a thumbnail. -/
def ownVideo : Device :=
  sampleDevice .video "/data/files/202601/1/payload.mp4"
    (fun p =>
      if p = ["/", "data", "files", "202601", "1", "payload.mp4"] then some [5, 5]
      else if p = ["/", "data", "files", "202601", "1", "thumb.webp"] then some [7]
      else none)

theorem queued_pickedImage :
    Queued 1 (sampleRow .image "/pick/a.jpg").attachment pickedImage where
  media := .inl (by decide)
  row := ⟨_, rfl, rfl, rfl⟩
  command := by decide
  reads := rfl
  accepted := rfl

theorem queued_ownVideo :
    Queued 1 (sampleRow .video "/data/files/202601/1/payload.mp4").attachment
      ownVideo where
  media := .inr (by decide)
  row := ⟨_, rfl, rfl, rfl⟩
  command := by decide
  reads := rfl
  accepted := rfl

/-- One attempt, of which all steps work, cuts the thumbnail to nothing. -/
theorem video_thumb_cut :
    let thumb := ["/", "data", "files", "202601", "1", "thumb.webp"]
    ownVideo.files thumb = some [7] ∧
      (ownVideo.attempt sampleHost 1 (sampleEnv none)).files thumb = some [] := by
  decide

/--
The process dies before the acknowledgement, and the next attempt, of which all
steps work, finds no body and marks the accepted message failed.
-/
theorem accepted_then_rejected :
    let accepted := pickedImage.attempt sampleHost 1 (sampleEnv (some .writeContent))
    let rejected := accepted.attempt sampleHost 1 (sampleEnv none)
    accepted.accepted = true ∧ rejected.reads = [none, some [5, 5]] ∧
      (rejected.store.message.byRowid 1).map MessageRow.status = some 3 := by
  decide +kernel

/-- Neither run does what it must. -/
theorem queued_runs_not_sound :
    (Queued 1 (sampleRow .video "/data/files/202601/1/payload.mp4").attachment
        ownVideo ∧
      ¬ SoundRun sampleHost 1 ownVideo [sampleEnv none]) ∧
    (Queued 1 (sampleRow .image "/pick/a.jpg").attachment pickedImage ∧
      ¬ SoundRun sampleHost 1 pickedImage
        [sampleEnv (some .writeContent), sampleEnv none]) := by
  refine ⟨⟨queued_ownVideo, fun hrun => ?_⟩, queued_pickedImage, fun hrun => ?_⟩
  · have hcanonical : (sampleRow .video
        "/data/files/202601/1/payload.mp4").attachment.canonicalThumb sampleHost =
          ["/", "data", "files", "202601", "1", "thumb.webp"] := by
      decide
    have hfile := hrun.1.kept
      (sampleRow .video "/data/files/202601/1/payload.mp4") rfl
      ["/", "data", "files", "202601", "1", "thumb.webp"] (.inl hcanonical.symm)
      [7] rfl video_thumb_cut.1
    rw [video_thumb_cut.2] at hfile
    cases hfile
  · obtain ⟨-, hreads, -⟩ := accepted_then_rejected
    have hsame := hrun.2.1.body none (by rw [hreads]; decide) (some [5, 5])
      (by rw [hreads]; decide)
    cases hsame

theorem mild_sampleEnv (crash : Option Step) (a : Attachment) :
    (sampleEnv crash).Mild a where
  io _ hio := absurd rfl hio
  thumb _ h := nomatch h
  thumbId info h := by
    cases h
    decide
  thumbCallback _ h := nomatch h
  body _ h := nomatch h
  bodyId info h := by
    cases h
    decide
  bodyCallback _ h := nomatch h
  encodes := rfl
  send _ h := by
    rcases h with h | h <;> cases h

/-- An attempt of the picked image, with no thumbnail yet or its own. -/
theorem safe_pickedImage
    {d : Device} (crash : Option Step)
    (hrow : ∀ row, d.store.message.byRowid 1 = some row →
      row.attachment = (sampleRow .image "/pick/a.jpg").attachment)
    (hcommand : ∀ command, d.store.attachmentCommand 1 = some command →
      command.payload = [])
    (hfile : d.files ["/", "pick", "a.jpg"] = some [5, 5])
    (hthumb : d.files ["/", "data", "files", "202601", "1", "thumb.webp"] = none ∨
      d.files ["/", "data", "files", "202601", "1", "thumb.webp"] =
        some [0, 5, 5]) :
    d.Safe sampleHost 1 (sampleRow .image "/pick/a.jpg").attachment
      (sampleEnv crash) := by
  intro command row hc hr
  have ha := hrow row hr
  have hempty := hcommand command hc
  refine ⟨fun _ => congrArg Attachment.content ha, fun hne => absurd hempty hne,
    ?_, ?_, fun _ _ => .inl (mild_sampleEnv crash _)⟩
  · rw [ha]
    intro _
    refine ⟨by decide, by decide, fun _ _ h => nomatch h⟩
  · rw [ha, hempty]
    intro body hbody t ht
    have hsource : (sampleRow .image "/pick/a.jpg").attachment.sourceThumb
        sampleHost = none := by
      decide
    have hnone : (sampleRow .image "/pick/a.jpg").attachment.managedThumb
        sampleHost d.files = none := by
      simp [Attachment.managedThumb, hsource]
    have hpath : (sampleRow .image "/pick/a.jpg").attachment.sourcePath =
        ["/", "pick", "a.jpg"] := by
      decide
    have hcanonical : (sampleRow .image "/pick/a.jpg").attachment.canonicalThumb
        sampleHost = ["/", "data", "files", "202601", "1", "thumb.webp"] := by
      decide
    simp only [Attachment.source, List.isEmpty_nil, if_true, hpath, hfile,
      Option.some.injEq] at hbody
    rw [hnone]
    rintro -
    obtain ⟨-, hown | ⟨p, hp, -⟩⟩ := ht
    · rw [hcanonical] at hown
      rcases hthumb with hthumb | hthumb
      · rw [hthumb] at hown
        cases hown
      · rw [hthumb, Option.some.injEq] at hown
        subst hown hbody
        exact ⟨by decide, rfl⟩
    · rw [hsource] at hp
      cases hp

/-- The process dies after the acceptance, and the next attempt sends. -/
theorem attempts_resume_pickedImage :
    SoundRun sampleHost 1 pickedImage
      [sampleEnv (some .sendMessage), sampleEnv none] := by
  refine attempts_resume sampleHost 1 (sampleRow .image "/pick/a.jpg").attachment
    pickedImage _ queued_pickedImage ⟨?_, ?_, trivial⟩
  · refine safe_pickedImage _ (fun row hrow => ?_) (fun command hc => ?_) rfl
      (.inl rfl)
    · cases hrow
      rfl
    · cases hc
      rfl
  · refine safe_pickedImage _ (fun row hrow => ?_) (fun command hc => ?_)
      (by decide +kernel) (.inr (by decide +kernel))
    · have hall : ∀ r ∈ (pickedImage.attempt sampleHost 1
          (sampleEnv (some .sendMessage))).store.message.rows,
          r.attachment = (sampleRow .image "/pick/a.jpg").attachment := by
        decide +kernel
      exact hall row ((Table.byRowid_eq_some_iff _ _ _).mp hrow).1
    · have hall : ∀ o ∈ (pickedImage.attempt sampleHost 1
          (sampleEnv (some .sendMessage))).store.outbox.rows, o.payload = [] := by
        decide +kernel
      exact hall command (List.mem_of_find?_eq_some hc)

end Sample

end PrivchatSdk
