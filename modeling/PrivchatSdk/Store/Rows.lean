import Mathlib.Algebra.Group.Int.Defs
import Mathlib.Algebra.Group.Nat.Defs
import PrivchatSdk.Lib.Exec
import PrivchatSdk.Lib.Table

/-!
# The account database: rows, tables and statements

One account database holds the messages, what is attached to them (extra,
reactions, mentions, reminders) and the outbox.  The rows below carry the
columns that the modelled operations read or write; the unique indexes of the
schema are the keys of the rows.

A statement can fail for a reason outside the database (`Env.fault`), or because
of a unique index.  Every statement has the context text of its `map_err`, which
is how the environment names it.

Identifiers are the nonnegative values of the `INTEGER` columns; the two flags
0 and 1 of a column are `Bool`.
-/

namespace PrivchatSdk

open StatementExec RelTable

section Rows

/-- Precision in which a source knows the send time. -/
inductive TimePrecision where
  | seconds
  | milliseconds
  deriving DecidableEq, Repr

/-- Table `message`. -/
structure MessageRow where
  id : Nat
  serverMessageId : Option Nat
  pts : Int
  channelId : Nat
  channelType : Int
  timestamp : Option Int
  fromUid : Nat
  messageType : Int
  content : String
  status : Int
  createdAt : Int
  updatedAt : Int
  searchableWord : String
  localMessageId : Nat
  setting : Int
  orderSeq : Int
  extra : String
  mimeType : Option String
  mediaDownloaded : Bool
  thumbStatus : Int
  createdAtPrecision : TimePrecision
  deriving DecidableEq, Repr

/-- `uniq_message_server_id` skips rows without a positive server id. -/
instance : Record MessageRow Nat where
  rowid := MessageRow.id
  keys r := r.serverMessageId.toList.filter (fun sid => 0 < sid)

/-- Table `message_extra`. -/
structure MessageExtraRow where
  id : Nat
  messageId : Nat
  channelId : Nat
  channelType : Int
  readed : Bool
  readedCount : Int
  unreadCount : Int
  revoke : Bool
  revoker : Option Nat
  extraVersion : Int
  isMutualDeleted : Bool
  contentEdit : Option String
  editedAt : Int
  needUpload : Bool
  isPinned : Bool
  delivered : Bool
  deliveredAt : Int
  deriving DecidableEq, Repr

/-- `message_extra_idx`. -/
instance : Record MessageExtraRow Nat where
  rowid := MessageExtraRow.id
  keys r := [r.messageId]

/-- Table `message_reaction`. -/
structure MessageReactionRow where
  id : Nat
  channelId : Nat
  channelType : Int
  uid : Nat
  name : String
  emoji : String
  messageId : Nat
  seq : Int
  isDeleted : Bool
  createdAt : Int
  deriving DecidableEq, Repr

/-- `chat_msg_reaction_index`. -/
instance : Record MessageReactionRow (Nat × Nat × String) where
  rowid := MessageReactionRow.id
  keys r := [(r.messageId, r.uid, r.emoji)]

/-- Table `mention`. -/
structure MentionRow where
  id : Nat
  messageId : Nat
  channelId : Nat
  channelType : Int
  mentionedUserId : Nat
  senderId : Nat
  isMentionAll : Bool
  createdAt : Int
  isRead : Bool
  deriving DecidableEq, Repr

/-- `UNIQUE(message_id, mentioned_user_id)`. -/
instance : Record MentionRow (Nat × Nat) where
  rowid := MentionRow.id
  keys r := [(r.messageId, r.mentionedUserId)]

/-- Table `reminder`. -/
structure ReminderRow where
  id : Nat
  reminderId : Nat
  messageId : Nat
  pts : Int
  channelId : Nat
  channelType : Int
  uid : Nat
  reminderType : Int
  text : String
  data : String
  isLocate : Bool
  version : Int
  done : Bool
  needUpload : Bool
  publisher : Option Nat
  deriving DecidableEq, Repr

/-- `uidx_reminder`. -/
instance : Record ReminderRow Nat where
  rowid := ReminderRow.id
  keys r := [r.reminderId]

/-- The idempotency id of an outbox command; `msg n` is the text `msg:{n}`. -/
inductive CommandId where
  | msg (localMessageId : Nat)
  deriving DecidableEq, Repr

/-- Table `outbox`. -/
structure OutboxRow where
  id : Nat
  commandId : CommandId
  commandType : String
  messageId : Option Nat
  channelId : Nat
  payload : List UInt8
  routeKey : Option String
  status : String
  retryCount : Int
  nextAttemptAt : Int
  lastError : Option String
  createdAt : Int
  updatedAt : Int
  deriving DecidableEq, Repr

/-- `command_id` is unique, and so is `message_id` where it is not `NULL`. -/
instance : Record OutboxRow (CommandId ⊕ Nat) where
  rowid := OutboxRow.id
  keys r := .inl r.commandId :: r.messageId.toList.map .inr

@[simp] theorem rowid_message (r : MessageRow) :
    Record.rowid r = r.id := by
  rfl

@[simp] theorem rowid_outbox (r : OutboxRow) :
    Record.rowid r = r.id := by
  rfl

@[simp] theorem keys_extra (r : MessageExtraRow) :
    Record.keys r = [r.messageId] := by
  rfl

@[simp] theorem keys_reaction (r : MessageReactionRow) :
    Record.keys r = [(r.messageId, r.uid, r.emoji)] := by
  rfl

@[simp] theorem keys_mention (r : MentionRow) :
    Record.keys r = [(r.messageId, r.mentionedUserId)] := by
  rfl

/-- The index over `server_message_id` knows a row by its positive server id. -/
@[simp] theorem mem_keys_message (r : MessageRow) (sid : Nat) :
    sid ∈ Record.keys r ↔ r.serverMessageId = some sid ∧ 0 < sid := by
  simp [Record.keys]

@[simp] theorem inl_mem_keys_outbox (r : OutboxRow) (c : CommandId) :
    Sum.inl c ∈ Record.keys r ↔ r.commandId = c := by
  simp [Record.keys, eq_comm]

@[simp] theorem inr_mem_keys_outbox (r : OutboxRow) (m : Nat) :
    Sum.inr m ∈ Record.keys r ↔ r.messageId = some m := by
  simp [Record.keys]

end Rows

/-- The tables of one account database. -/
structure Store where
  message : Table MessageRow
  messageExtra : Table MessageExtraRow
  messageReaction : Table MessageReactionRow
  mention : Table MentionRow
  reminder : Table ReminderRow
  outbox : Table OutboxRow

/-- The database of an account that never stored anything. -/
def Store.empty : Store where
  message := .empty
  messageExtra := .empty
  messageReaction := .empty
  mention := .empty
  reminder := .empty
  outbox := .empty

/-- The unique indexes that a modelled statement can violate. -/
inductive UniqueIndex where
  | messageServerId
  | outbox
  deriving DecidableEq, Repr

/-- Why a statement failed. -/
inductive SqlError where
  | io
  | constraint (index : UniqueIndex)
  | queryReturnedNoRows
  deriving DecidableEq, Repr

/-- The errors of the store operations. -/
inductive StoreError where
  | storage (context : String) (cause : Option SqlError)
  | missingLocalMessageId (messageId : Nat)
  | invalidState (text : String)
  deriving DecidableEq, Repr

/-- A statement hit the unique index over `server_message_id`. -/
def StoreError.onServerIdIndex : StoreError → Bool
  | .storage _ (some (.constraint .messageServerId)) => true
  | _ => false

/-- Clock reading and injected statement failures of one operation. -/
structure Env where
  now : Int
  fault : String → Bool

/-- The environment in which no statement fails for an outside reason. -/
def Env.calm (now : Int) : Env where
  now := now
  fault := fun _ => false

abbrev StoreM (α : Type) : Type :=
  Exec Env Store StoreError α

section Statements

variable {α : Type}

/-- The clock reading `Utc::now().timestamp_millis()`. -/
def nowMs : StoreM Int :=
  fun env s => (.ok env.now, s)

/-- One statement; a failure of any kind leaves the tables as they were. -/
def stmt
    (context : String) (body : Store → Except SqlError (α × Store)) :
    StoreM α :=
  fun env s =>
    if env.fault context then
      (.error (.storage context (some .io)), s)
    else
      match body s with
      | .ok (a, s') => (.ok a, s')
      | .error cause => (.error (.storage context (some cause)), s)

theorem stmt_ok
    {context : String} {body : Store → Except SqlError (α × Store)}
    {env : Env} {s s' : Store} {a : α} :
    stmt context body env s = (.ok a, s') ↔
      env.fault context = false ∧ body s = .ok (a, s') := by
  unfold stmt
  cases hf : env.fault context with
  | true =>
      simp
  | false =>
      cases hb : body s with
      | error cause =>
          simp
      | ok p =>
          obtain ⟨b, t⟩ := p
          simp

/-- A failed statement left the tables as they were. -/
theorem stmt_error
    {context : String} {body : Store → Except SqlError (α × Store)}
    {env : Env} {s s' : Store} {e : StoreError}
    (h : stmt context body env s = (.error e, s')) :
    s' = s ∧
      ((env.fault context = true ∧ e = .storage context (some .io)) ∨
        ∃ cause, body s = .error cause ∧
          e = .storage context (some cause)) := by
  unfold stmt at h
  split at h
  · rename_i hf
    cases h
    exact ⟨rfl, Or.inl ⟨hf, rfl⟩⟩
  · split at h
    · cases h
    · rename_i cause hb
      cases h
      exact ⟨rfl, Or.inr ⟨cause, hb, rfl⟩⟩

/-- A `SELECT`. -/
def query (context : String) (f : Store → α) : StoreM α :=
  stmt context (fun s => .ok (f s, s))

/-- A `SELECT` through `query_row`, which fails when no row matches. -/
def queryRow (context : String) (f : Store → Option α) : StoreM α :=
  stmt context (fun s =>
    match f s with
    | some a => .ok (a, s)
    | none => .error .queryReturnedNoRows)

/-- A statement that cannot hit a unique index. -/
def exec (context : String) (f : Store → Store) : StoreM PUnit :=
  stmt context (fun s => .ok (.unit, f s))

theorem query_ok
    {context : String} {f : Store → α} {env : Env} {s s' : Store} {a : α} :
    query context f env s = (.ok a, s') ↔
      env.fault context = false ∧ f s = a ∧ s = s' := by
  simp [query, stmt_ok]

theorem query_error
    {context : String} {f : Store → α} {env : Env} {s s' : Store}
    {e : StoreError}
    (h : query context f env s = (.error e, s')) :
    s' = s ∧ e.onServerIdIndex = false := by
  obtain ⟨rfl, ⟨-, rfl⟩ | ⟨cause, hc, -⟩⟩ := stmt_error h
  · exact ⟨rfl, rfl⟩
  · cases hc

theorem queryRow_ok
    {context : String} {f : Store → Option α} {env : Env} {s s' : Store}
    {a : α} :
    queryRow context f env s = (.ok a, s') ↔
      env.fault context = false ∧ f s = some a ∧ s = s' := by
  unfold queryRow
  rw [stmt_ok]
  cases f s with
  | none =>
      simp
  | some b =>
      simp

theorem queryRow_error
    {context : String} {f : Store → Option α} {env : Env} {s s' : Store}
    {e : StoreError}
    (h : queryRow context f env s = (.error e, s')) :
    s' = s ∧ e.onServerIdIndex = false := by
  obtain ⟨rfl, ⟨-, rfl⟩ | ⟨cause, hc, rfl⟩⟩ := stmt_error h
  · exact ⟨rfl, rfl⟩
  · cases hf : f s' with
    | none =>
        simp only [hf, Except.error.injEq] at hc
        subst hc
        exact ⟨rfl, rfl⟩
    | some b =>
        simp [hf] at hc

theorem exec_ok
    {context : String} {f : Store → Store} {env : Env} {s s' : Store}
    {u : PUnit} :
    exec context f env s = (.ok u, s') ↔
      env.fault context = false ∧ f s = s' := by
  simp [exec, stmt_ok]

theorem exec_error
    {context : String} {f : Store → Store} {env : Env} {s s' : Store}
    {e : StoreError}
    (h : exec context f env s = (.error e, s')) :
    s' = s ∧ e.onServerIdIndex = false := by
  obtain ⟨rfl, ⟨-, rfl⟩ | ⟨cause, hc, -⟩⟩ := stmt_error h
  · exact ⟨rfl, rfl⟩
  · cases hc

/-- A statement that hits no unique index fails for outside reasons only. -/
theorem exec_fault
    {context : String} {f : Store → Store} {env : Env} {s s' : Store}
    {e : StoreError}
    (h : exec context f env s = (.error e, s')) :
    env.fault context = true := by
  obtain ⟨-, ⟨hfault, -⟩ | ⟨cause, hc, -⟩⟩ := stmt_error h
  · exact hfault
  · cases hc

/-- Without outside failures a statement is its effect. -/
theorem exec_calm (context : String) (f : Store → Store) (now : Int) (s : Store) :
    exec context f (.calm now) s = (.ok .unit, f s) :=
  exec_ok.mpr ⟨rfl, rfl⟩

theorem query_calm (context : String) (f : Store → α) (now : Int) (s : Store) :
    query context f (.calm now) s = (.ok (f s), s) :=
  query_ok.mpr ⟨rfl, rfl, rfl⟩

/-- A statement is related when its successful runs are. -/
theorem relates_stmt
    {R : Store → Store → Prop} (hrefl : ∀ s, R s s)
    {context : String} {body : Store → Except SqlError (α × Store)}
    (h : ∀ s a s', body s = .ok (a, s') → R s s') :
    (stmt context body).Relates R := by
  intro env s
  cases hrun : stmt context body env s with
  | mk res s' =>
  unfold Exec.after
  rw [hrun]
  cases res with
  | ok a =>
      exact h s a s' (stmt_ok.mp hrun).2
  | error e =>
      rw [(stmt_error hrun).1]
      exact hrefl s

theorem relates_query
    {R : Store → Store → Prop} (hrefl : ∀ s, R s s)
    (context : String) (f : Store → α) :
    (query context f).Relates R := by
  refine relates_stmt hrefl ?_
  intro s a s' h
  cases h
  exact hrefl s

theorem relates_queryRow
    {R : Store → Store → Prop} (hrefl : ∀ s, R s s)
    (context : String) (f : Store → Option α) :
    (queryRow context f).Relates R := by
  refine relates_stmt hrefl ?_
  intro s a s' h
  split at h
  · cases h
    exact hrefl s
  · cases h

theorem relates_exec
    {R : Store → Store → Prop} (hrefl : ∀ s, R s s)
    (context : String) {f : Store → Store} (h : ∀ s, R s (f s)) :
    (exec context f).Relates R := by
  refine relates_stmt hrefl ?_
  intro s a s' hb
  cases hb
  exact h s

theorem relates_nowMs
    {R : Store → Store → Prop} (hrefl : ∀ s, R s s) :
    nowMs.Relates R := by
  intro _ s
  exact hrefl s

/-- The begin or the commit of a transaction. -/
def mark (context : String) : StoreM PUnit :=
  exec context id

/-- A transaction whose begin and commit have their own contexts. -/
def withTx
    (beginContext commitContext : String) (body : StoreM α) : StoreM α :=
  Exec.transaction (mark beginContext) (mark commitContext) body

/-- Begin and commit fail for outside reasons only. -/
theorem fails_withTx
    {b c : String} {body : StoreM α}
    (hbody : body.Fails (fun e => e.onServerIdIndex = false)) :
    (withTx b c body).Fails (fun e => e.onServerIdIndex = false) :=
  Exec.Fails.transaction
    (fun _ _ _ _ h => (exec_error h).2) (fun _ _ _ _ h => (exec_error h).2)
    hbody

theorem relates_withTx
    {R : Store → Store → Prop} (hrefl : ∀ s, R s s)
    (htrans : ∀ s t u, R s t → R t u → R s u)
    {b c : String} {body : StoreM α} (hbody : body.Relates R) :
    (withTx b c body).Relates R :=
  Exec.Relates.transaction hrefl htrans
    (relates_exec hrefl b hrefl) (relates_exec hrefl c hrefl) hbody

theorem withTx_error
    {b c : String} {body : StoreM α} {env : Env} {s s' : Store}
    {e : StoreError}
    (h : withTx b c body env s = (.error e, s')) :
    s' = s :=
  Exec.transaction_error h

theorem withTx_ok
    {b c : String} {body : StoreM α} {env : Env} {s s' : Store} {a : α}
    (h : withTx b c body env s = (.ok a, s')) :
    body env s = (.ok a, s') := by
  obtain ⟨u, s₁, s₂, w, hb, hbody, hc⟩ := Exec.transaction_ok h
  obtain ⟨-, rfl⟩ := exec_ok.mp hb
  obtain ⟨-, rfl⟩ := exec_ok.mp hc
  exact hbody

/-- A transaction whose parts all succeed is its body. -/
theorem withTx_of_body
    {b c : String} {body : StoreM α} {env : Env} {s s' : Store} {a : α}
    (hb : env.fault b = false) (hc : env.fault c = false)
    (h : body env s = (.ok a, s')) :
    withTx b c body env s = (.ok a, s') := by
  have hbegin : mark b env s = (.ok .unit, s) := exec_ok.mpr ⟨hb, rfl⟩
  have hcommit : mark c env s' = (.ok .unit, s') := exec_ok.mpr ⟨hc, rfl⟩
  unfold withTx Exec.transaction
  rw [Exec.bind_run, hbegin]
  dsimp only
  rw [Exec.bind_run, h]
  dsimp only
  rw [Exec.bind_run, hcommit]
  rfl

/-- Begin and commit of a transaction that succeeded did not fail. -/
theorem withTx_marks
    {b c : String} {body : StoreM α} {env : Env} {s s' : Store} {a : α}
    (h : withTx b c body env s = (.ok a, s')) :
    env.fault b = false ∧ env.fault c = false := by
  obtain ⟨u, s₁, s₂, w, hb, hbody, hc⟩ := Exec.transaction_ok h
  exact ⟨(exec_ok.mp hb).1, (exec_ok.mp hc).1⟩

end Statements

end PrivchatSdk
