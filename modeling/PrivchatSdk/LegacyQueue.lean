import PrivchatSdk.Store.Change
import PrivchatSdk.Store.Outbox

/-!
# The legacy sled queues

Versions before the outbox kept the commands that were not sent yet in sled
queues.  `migrateSledQueuesIntoOutbox` moves them into the outbox.  The two stores
have no common transaction: every command is written to the database on its own,
and the keys of a queue are removed when all of its commands had their turn.

A stop, by an error or by the end of the process, can happen between any two of
these writes; `QueueFaults` chooses where.  `Migrating` is what holds at every such
point: the database is the one at the start, changed for the commands that had
their turn (`acted`), and only these have left their queue (`Left`).
-/

namespace PrivchatSdk

open StatementExec RelTable EventRun

section Model

/-- One entry of a legacy queue. -/
structure LegacyCommand where
  key : List UInt8
  payload : List UInt8
  deriving DecidableEq, Repr

/-- `u64::from_be_bytes`, for a key of eight bytes. -/
def messageIdOfKey (key : List UInt8) : Option Nat :=
  if key.length = 8 then
    some (key.foldl (fun n b => n * 256 + b.toNat) 0)
  else
    none

/-- A sled queue, in the order of its keys. -/
structure SledQueue where
  commandType : String
  items : List LegacyCommand
  sorted : items.Pairwise (fun a b => a.key < b.key)

/-- Remove the entry under a key. -/
def SledQueue.remove (q : SledQueue) (key : List UInt8) : SledQueue where
  commandType := q.commandType
  items := q.items.filter (fun c => c.key != key)
  sorted := q.sorted.filter _

/-- What an attempt counted. -/
structure SledQueueMigration where
  moved : Nat
  remaining : Nat
  quarantined : Nat
  deriving DecidableEq, Repr

/-- What became of one entry. -/
inductive Verdict where
  | moved
  | gone
  | quarantined
  | remaining
  deriving DecidableEq, Repr

def SledQueueMigration.count (m : SledQueueMigration) :
    Verdict → SledQueueMigration
  | .moved => { m with moved := m.moved + 1 }
  | .gone => m
  | .quarantined => { m with quarantined := m.quarantined + 1 }
  | .remaining => { m with remaining := m.remaining + 1 }

/-- The turn of one entry. -/
def drainItem (commandType : String) (c : LegacyCommand) : StoreM Verdict :=
  match messageIdOfKey c.key with
  | none => pure .quarantined
  | some messageId => do
      let found ← getMessageById messageId
      if found.isNone then
        pure .gone
      else do
        let moved ← Exec.attempt
          (outboxEnqueue messageId commandType 0 c.payload none)
        match moved with
        | .ok _ => pure .moved
        | .error (.missingLocalMessageId _) => do
            -- the command goes only if the failed status is stored
            let marked ← Exec.attempt (updateMessageStatus messageId 3)
            match marked with
            | .ok _ => pure .quarantined
            | .error _ => pure .remaining
        | .error _ => pure .remaining

/-- How the removal of a key ends. -/
inductive Removal where
  | removed
  | failed
  | crashed
  deriving DecidableEq, Repr

/--
The faults of an attempt at one queue: whether opening fails, at which key the
iterator fails or the process ends, the statements that fail for a key, the
removals, and whether the flush fails.
-/
structure QueueFaults where
  opens : Bool
  iter : List UInt8 → Bool
  env : List UInt8 → Env
  remove : List UInt8 → Removal
  flush : Bool

/-- An attempt without faults. -/
def QueueFaults.calm (now : Int) : QueueFaults where
  opens := false
  iter _ := false
  env _ := .calm now
  remove _ := .removed
  flush := false

/-- The loop over a queue; `none` is a stop. -/
def scanQueue (commandType : String) (faults : QueueFaults) :
    List LegacyCommand → SledQueueMigration → List LegacyCommand → Store →
      Option (SledQueueMigration × List LegacyCommand) × Store
  | [], m, done, s => (some (m, done), s)
  | c :: cs, m, done, s =>
      if faults.iter c.key then
        (none, s)
      else
        match drainItem commandType c (faults.env c.key) s with
        | (.error _, s') => (none, s')
        | (.ok v, s') =>
            scanQueue commandType faults cs (m.count v)
              (if v = .remaining then done else done ++ [c]) s'

/-- The loop over the keys to remove. -/
def removeDone (faults : QueueFaults) :
    List LegacyCommand → SledQueueMigration → SledQueue →
      Option SledQueueMigration × SledQueue
  | [], m, q => (some m, q)
  | c :: cs, m, q =>
      match faults.remove c.key with
      | .removed => removeDone faults cs m (q.remove c.key)
      | .failed => removeDone faults cs (m.count .remaining) q
      | .crashed => (none, q)

/-- `drain`: one queue of an attempt. -/
def drainQueue
    (faults : QueueFaults) (m : SledQueueMigration) (q : SledQueue) (s : Store) :
    Option SledQueueMigration × SledQueue × Store :=
  if faults.opens then
    (none, q, s)
  else
    match scanQueue q.commandType faults q.items m [] s with
    | (none, s') => (none, q, s')
    | (some (m', done), s') =>
        match removeDone faults done m' q with
        | (none, q') => (none, q', s')
        | (some m'', q') => (if faults.flush then none else some m'', q', s')

/-- One queue after the other. -/
def drainQueues :
    (Nat → QueueFaults) → SledQueueMigration → List SledQueue → Store →
      Option SledQueueMigration × List SledQueue × Store
  | _, m, [], s => (some m, [], s)
  | faults, m, q :: qs, s =>
      match drainQueue (faults 0) m q s with
      | (none, q', s') => (none, q' :: qs, s')
      | (some m', q', s') =>
          match drainQueues (fun i => faults (i + 1)) m' qs s' with
          | (res, qs', s'') => (res, q' :: qs', s'')

/-- The durable state of an account: the database and the queues, normal first. -/
structure LegacyAccount where
  store : Store
  queues : List SledQueue

/-- The queues of an account as `StoragePaths` lists them. -/
def legacyQueues
    (normal : List LegacyCommand) (files : List (List LegacyCommand))
    (hnormal : normal.Pairwise (fun a b => a.key < b.key))
    (hfiles : ∀ items ∈ files, items.Pairwise (fun a b => a.key < b.key)) :
    List SledQueue :=
  { commandType := "message", items := normal, sorted := hnormal } ::
    files.attach.map (fun items =>
      { commandType := "attachment"
        items := items.1
        sorted := hfiles items.1 items.2 })

/-- `migrate_sled_queues_into_outbox`: one attempt. -/
def migrateSledQueuesIntoOutbox (faults : Nat → QueueFaults) (a : LegacyAccount) :
    Option SledQueueMigration × LegacyAccount :=
  match drainQueues faults ⟨0, 0, 0⟩ a.queues a.store with
  | (res, qs, s) => (res, { store := s, queues := qs })

/-- The account and whether this process holds its queues for migrated. -/
structure LegacySession where
  account : LegacyAccount
  migrated : Bool

/-- `ensure_user_storage`, and the start of a new process. -/
inductive LegacyEvent where
  | ensureUserStorage (faults : Nat → QueueFaults)
  | restart

def LegacySession.step (x : LegacySession) : LegacyEvent → LegacySession
  | .ensureUserStorage faults =>
      if x.migrated then
        x
      else
        match migrateSledQueuesIntoOutbox faults x.account with
        | (some m, a) => { account := a, migrated := decide (m.remaining = 0) }
        | (none, a) => { account := a, migrated := false }
  | .restart => { x with migrated := false }

end Model

section Enqueue

/-- Why `outbox_enqueue` fails. -/
inductive EnqueueFailure (messageId : Nat) (env : Env) (s : Store) :
    StoreError → Prop
  | outside (context : String) (hfault : env.fault context = true) :
      EnqueueFailure messageId env s (.storage context (some .io))
  | unidentified
      (hzero : ((s.message.byRowid messageId).map
        (fun r => r.localMessageId)).getD 0 = 0) :
      EnqueueFailure messageId env s (.missingLocalMessageId messageId)
  | taken (row : MessageRow) (hrow : s.message.byRowid messageId = some row)
      (hpos : 0 < row.localMessageId)
      (hnew : s.outbox.lookup (.inl (.msg row.localMessageId)) = none)
      (htaken : (s.outbox.lookup (.inr messageId)).isSome = true) :
      EnqueueFailure messageId env s
        (.storage "outbox enqueue insert" (some (.constraint .outbox)))

/-- An insert of a command fails if the outbox knows its message by another one. -/
theorem lookup_of_insert_none
    {t : Table OutboxRow} {commandId : CommandId} {commandType : String}
    {messageId channelId : Nat} {payload : List UInt8}
    {routeKey : Option String} {now : Int}
    (hnew : t.lookup (.inl commandId) = none)
    (h : t.insert
      (OutboxRow.pending commandId commandType messageId channelId payload routeKey
        now) (fun _ => rfl) = none) :
    (t.lookup (.inr messageId)).isSome = true := by
  obtain ⟨r, hr, k, hk, hk'⟩ := (Table.insert_eq_none_iff _ _ _).mp h
  have hkeys : k = .inl commandId ∨ k = .inr messageId := by
    simpa [Record.keys, OutboxRow.pending] using hk'
  rcases hkeys with rfl | rfl
  · exact absurd hk ((Table.lookup_eq_none_iff _ _).mp hnew r hr)
  · cases hlookup : t.lookup (.inr messageId) with
    | none =>
        exact absurd hk ((Table.lookup_eq_none_iff _ _).mp hlookup r hr)
    | some o =>
        rfl

theorem lookup_command_none_iff {t : Table OutboxRow} {commandId : CommandId} :
    t.lookup (.inl commandId) = none ↔
      t.rows.any (fun o => o.commandId == commandId) = false := by
  rw [Table.lookup_eq_none_iff, List.any_eq_false]
  simp

/-- A statement that no index can refuse fails for outside reasons only. -/
theorem stmt_outside
    {α : Type} {context : String} {body : Store → Except SqlError (α × Store)}
    {env : Env} {s s' : Store} {e : StoreError}
    (h : stmt context body env s = (.error e, s'))
    (hbody : ∀ cause, body s ≠ .error cause) :
    env.fault context = true ∧ e = .storage context (some .io) := by
  obtain ⟨-, houtside | ⟨cause, hc, -⟩⟩ := stmt_error h
  · exact houtside
  · exact absurd hc (hbody cause)

theorem mark_failure
    {context : String} {env : Env} {s s' : Store} {e : StoreError}
    (h : mark context env s = (.error e, s')) :
    env.fault context = true ∧ e = .storage context (some .io) := by
  unfold mark exec at h
  exact stmt_outside h (by simp)

theorem upsertOutbox_failure
    {messageId : Nat} {commandType : String} {channelId : Nat}
    {payload : List UInt8} {routeKey : Option String} {context : String}
    {commandId : CommandId} {now : Int} {env : Env} {s s' : Store} {e : StoreError}
    (h : upsertOutbox context commandId commandType messageId channelId payload
      routeKey now env s = (.error e, s')) :
    (env.fault context = true ∧ e = .storage context (some .io)) ∨
      (e = .storage context (some (.constraint .outbox)) ∧
        s.outbox.lookup (.inl commandId) = none ∧
        (s.outbox.lookup (.inr messageId)).isSome = true) := by
  obtain ⟨-, houtside | ⟨cause, hc, rfl⟩⟩ := stmt_error h
  · exact Or.inl houtside
  · split at hc
    · cases hc
    · rename_i hnew
      rw [Bool.not_eq_true, ← lookup_command_none_iff] at hnew
      split at hc
      · cases hc
      · rename_i hinsert
        cases hc
        exact Or.inr ⟨rfl, hnew, lookup_of_insert_none hnew hinsert⟩

theorem outboxEnqueue_failure
    {messageId : Nat} {commandType : String} {channelId : Nat}
    {payload : List UInt8} {routeKey : Option String}
    {env : Env} {s s' : Store} {e : StoreError}
    (h : outboxEnqueue messageId commandType channelId payload routeKey env s =
      (.error e, s')) :
    EnqueueFailure messageId env s e := by
  rcases Exec.transaction_failed h with
    ⟨s₁, hb⟩ | ⟨u, s₁, s₂, hb, hbody⟩ | ⟨s₁, s₂, hc⟩
  · obtain ⟨hfault, rfl⟩ := mark_failure hb
    exact .outside _ hfault
  · have hs : s = s₁ := (exec_ok.mp hb).2
    subst hs
    rw [nowMs_bind] at hbody
    rcases Exec.bind_error.mp hbody with hq | ⟨found, s₃, hq, hrest⟩
    · obtain ⟨hfault, rfl⟩ := stmt_outside hq (by simp)
      exact .outside _ hfault
    · obtain ⟨-, rfl, rfl⟩ := query_ok.mp hq
      split at hrest
      · rename_i hzero
        cases hrest
        exact .unidentified hzero
      · rename_i hpos
        rcases Exec.bind_error.mp hrest with hm | ⟨n, s₄, hm, hrest⟩
        · obtain ⟨hfault, rfl⟩ := stmt_outside hm (by simp)
          exact .outside _ hfault
        · obtain ⟨-, -, rfl⟩ := modifyMessage_ok.mp hm
          rcases upsertOutbox_failure hrest with
            ⟨hfault, rfl⟩ | ⟨rfl, hnew, htaken⟩
          · exact .outside _ hfault
          · cases hrow : s.message.byRowid messageId with
            | none =>
                simp [hrow] at hpos
            | some row =>
                simp only [hrow, Option.map_some, Option.getD_some] at hpos hnew
                exact .taken row hrow (by omega) hnew htaken
  · obtain ⟨hfault, rfl⟩ := mark_failure hc
    exact .outside _ hfault

end Enqueue

section Item

variable {commandType : String} {c : LegacyCommand} {env : Env} {s : Store}

/-- What the turn of an entry can do. -/
inductive Drained (commandType : String) (c : LegacyCommand) (env : Env) (s : Store) :
    Except StoreError Verdict → Store → Prop
  | stopped (e : StoreError)
      (hfault : env.fault "get message by id" = true) :
      Drained commandType c env s (.error e) s
  | malformed (hkey : messageIdOfKey c.key = none) :
      Drained commandType c env s (.ok .quarantined) s
  | gone (messageId : Nat) (hkey : messageIdOfKey c.key = some messageId)
      (hrow : s.message.byRowid messageId = none) :
      Drained commandType c env s (.ok .gone) s
  | moved (messageId : Nat) (row : MessageRow) (o : Table OutboxRow)
      (hkey : messageIdOfKey c.key = some messageId)
      (hrow : s.message.byRowid messageId = some row)
      (hpos : 0 < row.localMessageId)
      (ho : OutboxUpserted (.msg row.localMessageId) commandType messageId 0
        c.payload none env.now s.outbox o) :
      Drained commandType c env s (.ok .moved)
        { s with message := s.markSending messageId env.now, outbox := o }
  | failed (messageId : Nat) (row : MessageRow)
      (hkey : messageIdOfKey c.key = some messageId)
      (hrow : s.message.byRowid messageId = some row)
      (hzero : row.localMessageId = 0) :
      Drained commandType c env s (.ok .quarantined)
        { s with message := s.withStatus messageId 3 env.now }
  | faulty (context : String) (hfault : env.fault context = true) :
      Drained commandType c env s (.ok .remaining) s
  | taken (messageId : Nat) (row : MessageRow)
      (hkey : messageIdOfKey c.key = some messageId)
      (hrow : s.message.byRowid messageId = some row)
      (hpos : 0 < row.localMessageId)
      (hnew : s.outbox.lookup (.inl (.msg row.localMessageId)) = none)
      (htaken : (s.outbox.lookup (.inr messageId)).isSome = true) :
      Drained commandType c env s (.ok .remaining) s

theorem storedMessage_isNone (s : Store) (messageId : Nat) :
    (s.storedMessage messageId).isNone = (s.message.byRowid messageId).isNone := by
  unfold Store.storedMessage
  rw [Option.isNone_map]

/-- The status update of a stored row fails for outside reasons only. -/
theorem updateMessageStatus_fault
    {messageId : Nat} {status : Int} {s' : Store} {row : MessageRow} {e : StoreError}
    (hrow : s.message.byRowid messageId = some row)
    (h : updateMessageStatus messageId status env s = (.error e, s')) :
    env.fault "update message status" = true := by
  unfold updateMessageStatus at h
  rw [nowMs_bind] at h
  cases hfault : env.fault "update message status" with
  | true =>
      rfl
  | false =>
      rw [modifyExisting_found hfault hrow] at h
      cases h

/-- The turn of an entry, if its message was loaded and is stored. -/
theorem drainItem_stored
    {messageId : Nat} {row : MessageRow}
    {res : Except StoreError Verdict} {s' : Store}
    (hkey : messageIdOfKey c.key = some messageId)
    (hrow : s.message.byRowid messageId = some row)
    (h : (do
      let moved ← Exec.attempt
        (outboxEnqueue messageId commandType 0 c.payload none)
      match moved with
      | .ok _ => pure .moved
      | .error (.missingLocalMessageId _) => do
          let marked ← Exec.attempt (updateMessageStatus messageId 3)
          match marked with
          | .ok _ => pure .quarantined
          | .error _ => pure .remaining
      | .error _ => pure .remaining : StoreM Verdict) env s = (res, s')) :
    Drained commandType c env s res s' := by
  rw [Exec.attempt_bind] at h
  cases hmove : outboxEnqueue messageId commandType 0 c.payload none env s with
  | mk moved s₁ =>
  rw [hmove] at h
  have hmoved := outboxEnqueue_outcome hmove
  cases hmoved with
  | enqueued row' o hrow' hpos ho =>
      cases h
      exact .moved messageId row' o hkey hrow' hpos ho
  | failed e =>
      have hfailure := outboxEnqueue_failure hmove
      cases hfailure with
      | outside context hfault =>
          cases h
          exact .faulty context hfault
      | taken row' hrow' hpos hnew htaken =>
          cases h
          exact .taken messageId row' hkey hrow' hpos hnew htaken
      | unidentified hzero =>
          rw [hrow, Option.map_some, Option.getD_some] at hzero
          dsimp only at h
          rw [Exec.attempt_bind] at h
          cases hmark : updateMessageStatus messageId 3 env s with
          | mk marked s₂ =>
          rw [hmark] at h
          rcases updateMessageStatus_cases hmark with ⟨e, rfl, rfl⟩ | ⟨rfl, rfl⟩
          · cases h
            exact .faulty _ (updateMessageStatus_fault hrow hmark)
          · cases h
            exact .failed messageId row hkey hrow hzero

theorem drainItem_drained
    {res : Except StoreError Verdict} {s' : Store}
    (h : drainItem commandType c env s = (res, s')) :
    Drained commandType c env s res s' := by
  unfold drainItem at h
  cases hkey : messageIdOfKey c.key with
  | none =>
      rw [hkey] at h
      cases h
      exact .malformed hkey
  | some messageId =>
      rw [hkey] at h
      dsimp only at h
      rw [Exec.bind_run] at h
      split at h
      · rename_i found s₁ hload
        obtain ⟨-, rfl, rfl⟩ := query_ok.mp hload
        rw [storedMessage_isNone] at h
        cases hrow : s.message.byRowid messageId with
        | none =>
            rw [hrow] at h
            cases h
            exact .gone messageId hkey hrow
        | some row =>
            rw [hrow] at h
            exact drainItem_stored hkey hrow h
      · rename_i e s₁ hload
        cases h
        unfold getMessageById query at hload
        obtain ⟨hfault, -⟩ := stmt_outside hload (by simp)
        cases (stmt_error hload).1
        exact .stopped e hfault

end Item

section Progress

/-- A message row without its clock. -/
def MessageRow.unclocked (r : MessageRow) : MessageRow :=
  { r with updatedAt := 0 }

/-- The row of a message whose legacy command had its turn. -/
def MessageRow.settled (r : MessageRow) : MessageRow :=
  { r with
    status := if r.localMessageId = 0 then 3 else 1
    updatedAt := 0 }

/-- An outbox row without its row id and its clocks. -/
def OutboxRow.unclocked (o : OutboxRow) : OutboxRow :=
  { o with
    id := 0
    createdAt := 0
    updatedAt := 0 }

/-- The command id under which an entry goes to the outbox. -/
def Store.commandIdOf (s : Store) (c : LegacyCommand) : Option CommandId :=
  ((messageIdOfKey c.key).bind (fun n => s.message.byRowid n)).bind
    (fun r => if r.localMessageId = 0 then none else some (.msg r.localMessageId))

/-- The outbox row of an entry that had its turn. -/
def Store.enqueued (s : Store) (k : CommandId) (p : String × LegacyCommand) :
    OutboxRow :=
  match s.outbox.lookup (.inl k) with
  | some o =>
      { o.unclocked with
        payload := p.2.payload
        routeKey := none
        status := "pending"
        nextAttemptAt := 0 }
  | none =>
      OutboxRow.pending k p.1 ((messageIdOfKey p.2.key).getD 0) 0 p.2.payload none
        0 0

/-- The outbox knows the message of an entry by another command. -/
def Store.blocks (s : Store) (c : LegacyCommand) : Bool :=
  match messageIdOfKey c.key with
  | none => false
  | some n =>
      match s.message.byRowid n with
      | none => false
      | some r =>
          r.localMessageId != 0 &&
            (s.outbox.lookup (.inl (.msg r.localMessageId))).isNone &&
              (s.outbox.lookup (.inr n)).isSome

def actedOn (acted : List (String × LegacyCommand)) (n : Nat) : Bool :=
  acted.any (fun p => messageIdOfKey p.2.key == some n)

/-- The database at the start, changed for the entries in `acted`. -/
structure Progress
    (s₀ : Store) (acted : List (String × LegacyCommand)) (s : Store) : Prop where
  message : ∀ n, (s.message.byRowid n).map MessageRow.unclocked =
    (s₀.message.byRowid n).map
      (fun r => if actedOn acted n then r.settled else r.unclocked)
  outbox : ∀ k, (s.outbox.lookup (.inl k)).map OutboxRow.unclocked =
    match acted.find? (fun p => s₀.commandIdOf p.2 == some k) with
    | some p => some (s₀.enqueued k p)
    | none => (s₀.outbox.lookup (.inl k)).map OutboxRow.unclocked
  rest : { s with message := s₀.message, outbox := s₀.outbox } = s₀

theorem Progress.refl (s : Store) : Progress s [] s where
  message _ := rfl
  outbox _ := rfl
  rest := rfl

variable {s₀ s : Store} {acted : List (String × LegacyCommand)}

/-- A stored row is the row at the start, but for its status and its clock. -/
theorem Progress.row
    (h : Progress s₀ acted s) {n : Nat} {r : MessageRow}
    (hr : s.message.byRowid n = some r) :
    ∃ r₀, s₀.message.byRowid n = some r₀ ∧
      r.unclocked = if actedOn acted n then r₀.settled else r₀.unclocked := by
  have hn := h.message n
  rw [hr, Option.map_some] at hn
  obtain ⟨r₀, hr₀, heq⟩ := Option.map_eq_some_iff.mp hn.symm
  exact ⟨r₀, hr₀, heq.symm⟩

theorem Progress.localMessageId
    (h : Progress s₀ acted s) {n : Nat} {r : MessageRow}
    (hr : s.message.byRowid n = some r) :
    ∃ r₀, s₀.message.byRowid n = some r₀ ∧ r₀.localMessageId = r.localMessageId := by
  obtain ⟨r₀, hr₀, heq⟩ := h.row hr
  refine ⟨r₀, hr₀, ?_⟩
  have hid := congrArg MessageRow.localMessageId heq
  split at hid
  · exact hid.symm
  · exact hid.symm

theorem Progress.byRowid_none
    (h : Progress s₀ acted s) {n : Nat} :
    s.message.byRowid n = none ↔ s₀.message.byRowid n = none := by
  have hn := congrArg Option.isNone (h.message n)
  rw [Option.isNone_map, Option.isNone_map] at hn
  rw [← Option.isNone_iff_eq_none, ← Option.isNone_iff_eq_none, hn]

theorem Store.commandIdOf_eq
    {c : LegacyCommand} {n : Nat} {r : MessageRow}
    (hkey : messageIdOfKey c.key = some n) (hr : s.message.byRowid n = some r) :
    s.commandIdOf c =
      if r.localMessageId = 0 then none else some (.msg r.localMessageId) := by
  unfold Store.commandIdOf
  rw [hkey, Option.bind_some, hr, Option.bind_some]

theorem Store.commandIdOf_some
    {c : LegacyCommand} {k : CommandId} (h : s.commandIdOf c = some k) :
    ∃ n r, messageIdOfKey c.key = some n ∧ s.message.byRowid n = some r ∧
      0 < r.localMessageId ∧ k = .msg r.localMessageId := by
  unfold Store.commandIdOf at h
  obtain ⟨r, hr, hk⟩ := Option.bind_eq_some_iff.mp h
  obtain ⟨n, hkey, hrow⟩ := Option.bind_eq_some_iff.mp hr
  split at hk
  · cases hk
  · rename_i hpos
    cases hk
    exact ⟨n, r, hkey, hrow, by omega, rfl⟩

theorem Store.blocks_eq_true
    {c : LegacyCommand} {n : Nat} {r : MessageRow}
    (hkey : messageIdOfKey c.key = some n) (hr : s.message.byRowid n = some r) :
    s.blocks c = true ↔ 0 < r.localMessageId ∧
      s.outbox.lookup (.inl (.msg r.localMessageId)) = none ∧
      (s.outbox.lookup (.inr n)).isSome = true := by
  unfold Store.blocks
  rw [hkey]
  dsimp only
  rw [hr]
  simp [Nat.pos_iff_ne_zero, and_assoc]

theorem actedOn_cons (p : String × LegacyCommand) (n : Nat) :
    actedOn (p :: acted) n =
      (messageIdOfKey p.2.key == some n || actedOn acted n) := by
  rfl

/-- An entry without a stored message changes nothing. -/
theorem Progress.skip
    (h : Progress s₀ acted s) {p : String × LegacyCommand}
    (hgone : ∀ n, messageIdOfKey p.2.key = some n → s.message.byRowid n = none) :
    Progress s₀ (p :: acted) s where
  message := by
    intro n
    rw [h.message n, actedOn_cons]
    cases hn : messageIdOfKey p.2.key == some n with
    | false =>
        rfl
    | true =>
        have hnone := h.byRowid_none.mp (hgone n (by simpa using hn))
        rw [hnone]
        rfl
  outbox := by
    intro k
    have hk : (s₀.commandIdOf p.2 == some k) = false := by
      rw [beq_eq_false_iff_ne]
      intro hsome
      obtain ⟨n, r, hkey, hr, -⟩ := Store.commandIdOf_some hsome
      rw [h.byRowid_none.mp (hgone n hkey)] at hr
      cases hr
    rw [h.outbox k, List.find?_cons, hk]
  rest := h.rest

/-- Marking the message of an entry, as the messages show it. -/
theorem Progress.mark
    (h : Progress s₀ acted s) {p : String × LegacyCommand} {n : Nat}
    {r : MessageRow} {status now : Int}
    (hkey : messageIdOfKey p.2.key = some n) (hr : s.message.byRowid n = some r)
    (hstatus : status = if r.localMessageId = 0 then 3 else 1) (m : Nat) :
    ((s.message.modify (fun r => r.id == n)
        (fun r => { r with status := status, updatedAt := now })
        (fun _ => rfl) (fun _ => rfl)).byRowid m).map MessageRow.unclocked =
      (s₀.message.byRowid m).map
        (fun r => if actedOn (p :: acted) m then r.settled else r.unclocked) := by
  rw [Table.byRowid_modify, actedOn_cons, hkey]
  by_cases hm : m = n
  · subst hm
    obtain ⟨r₀, hr₀, hlocal⟩ := h.localMessageId hr
    obtain ⟨r₁, hr₁, hrow⟩ := h.row hr
    rw [hr₀] at hr₁
    cases hr₁
    have hid : (r.id == m) = true := by
      simpa using ((s.message.byRowid_eq_some_iff _ _).mp hr).2
    have hset : ({ r with status := status, updatedAt := now } : MessageRow).unclocked =
        { r.unclocked with status := status } := rfl
    rw [hr, hr₀]
    simp only [Option.map_some, hid, if_true, beq_self_eq_true, Bool.true_or]
    rw [hset, hrow, hstatus, ← hlocal]
    split
    · rfl
    · rfl
  · have hne : (some n == some m) = false := by
      simpa using fun hnm => hm hnm.symm
    rw [hne, Bool.false_or, ← h.message m, Option.map_map]
    refine Option.map_congr ?_
    intro r' hr'
    have hid : r'.id = m := ((s.message.byRowid_eq_some_iff _ _).mp hr').2
    have hother : (r'.id == n) = false := by
      rw [hid]
      simpa using hm
    simp only [Function.comp_apply, hother, Bool.false_eq_true, if_false]

/-- What an upsert leaves under its own command id and under the others. -/
theorem OutboxUpserted.lookup
    {k : CommandId} {commandType : String} {messageId : Nat} {payload : List UInt8}
    {now : Int} {t t' : Table OutboxRow}
    (h : OutboxUpserted k commandType messageId 0 payload none now t t')
    (k' : CommandId) :
    (t'.lookup (.inl k')).map OutboxRow.unclocked =
      if k' = k then
        some (match t.lookup (.inl k) with
          | some o =>
              { o.unclocked with
                payload := payload
                routeKey := none
                status := "pending"
                nextAttemptAt := 0 }
          | none => OutboxRow.pending k commandType messageId 0 payload none 0 0)
      else (t.lookup (.inl k')).map OutboxRow.unclocked := by
  cases h with
  | refreshed hexists =>
      rw [Table.lookup_modify]
      split
      · rename_i hk
        subst hk
        cases hlookup : t.lookup (.inl k') with
        | none =>
            rw [lookup_command_none_iff, hexists] at hlookup
            cases hlookup
        | some o =>
            have ho : (o.commandId == k') = true := by
              simpa using ((t.lookup_eq_some_iff _ _).mp hlookup).2
            simp only [Option.map_some, ho, if_true]
            rfl
      · rename_i hk
        rw [Option.map_map]
        refine Option.map_congr ?_
        intro o ho
        have hid := ((t.lookup_eq_some_iff _ _).mp ho).2
        rw [inl_mem_keys_outbox] at hid
        have hother : (o.commandId == k) = false := by
          rw [hid]
          simpa using hk
        simp only [Function.comp_apply, hother, Bool.false_eq_true, if_false]
  | inserted _ n hnew ho =>
      obtain ⟨-, hrows, -⟩ := Table.rows_of_insert ho
      have happend : t'.lookup (.inl k') = (t.lookup (.inl k')).or
          (if k' = k then
            some (OutboxRow.pending k commandType messageId 0 payload none now
              t.nextRowid)
          else none) := by
        unfold Table.lookup
        rw [hrows, List.find?_append]
        by_cases hk : k' = k
        · simp [OutboxRow.pending, hk]
        · have hk' : ¬ k = k' := fun heq => hk heq.symm
          simp [OutboxRow.pending, hk, hk']
      rw [happend]
      split
      · rename_i hk
        subst hk
        have hnone : t.lookup (.inl k') = none := by
          rw [Table.lookup_eq_none_iff]
          intro r hr
          simpa using hnew r hr
        rw [hnone]
        rfl
      · rw [Option.or_none]

/-- Writing the command of an entry, as the outbox shows it. -/
theorem Progress.upsert
    (h : Progress s₀ acted s) {p : String × LegacyCommand} {n : Nat}
    {k : CommandId} {now : Int} {o : Table OutboxRow}
    (hkey : messageIdOfKey p.2.key = some n) (hk : s₀.commandIdOf p.2 = some k)
    (honly : ∀ q ∈ acted, s₀.commandIdOf q.2 = some k → q = p)
    (ho : OutboxUpserted k p.1 n 0 p.2.payload none now s.outbox o)
    (k' : CommandId) :
    (o.lookup (.inl k')).map OutboxRow.unclocked =
      match (p :: acted).find? (fun q => s₀.commandIdOf q.2 == some k') with
      | some q => some (s₀.enqueued k' q)
      | none => (s₀.outbox.lookup (.inl k')).map OutboxRow.unclocked := by
  rw [ho.lookup, List.find?_cons, hk]
  by_cases hkk : k' = k
  · subst hkk
    simp only [if_true, beq_self_eq_true, Option.some.injEq]
    have hbefore := h.outbox k'
    split at hbefore
    · rename_i q hq
      have hqp := honly q (List.mem_of_find?_eq_some hq)
        (by simpa using List.find?_some hq)
      subst hqp
      obtain ⟨o', ho', heq⟩ := Option.map_eq_some_iff.mp hbefore
      rw [ho']
      dsimp only
      rw [heq]
      unfold Store.enqueued
      split
      · rfl
      · rfl
    · cases hs : s.outbox.lookup (.inl k') with
      | none =>
          rw [hs, Option.map_none, eq_comm, Option.map_eq_none_iff] at hbefore
          unfold Store.enqueued
          rw [hbefore, hkey]
          rfl
      | some o' =>
          rw [hs, Option.map_some, eq_comm] at hbefore
          obtain ⟨o₀, ho₀, heq⟩ := Option.map_eq_some_iff.mp hbefore
          unfold Store.enqueued
          rw [ho₀]
          dsimp only
          rw [heq]
  · have hne : (some k == some k') = false := by
      simpa using fun heq => hkk heq.symm
    rw [if_neg hkk, hne, h.outbox k']

end Progress

section Turn

variable {s₀ s : Store} {acted all : List (String × LegacyCommand)}

/-- Different entries go to the outbox under different command ids. -/
def Distinct (s₀ : Store) (all : List (String × LegacyCommand)) : Prop :=
  ∀ p ∈ all, ∀ q ∈ all, ∀ k,
    s₀.commandIdOf p.2 = some k → s₀.commandIdOf q.2 = some k → p = q

/-- The entries that had their turn were entries of the queues, and not refused. -/
structure Migrating
    (s₀ : Store) (all acted : List (String × LegacyCommand)) (s : Store) : Prop
    extends Progress s₀ acted s where
  sub : ∀ p ∈ acted, p ∈ all
  free : ∀ p ∈ acted, s₀.blocks p.2 = false

theorem Migrating.refl (s : Store) (all : List (String × LegacyCommand)) :
    Migrating s all [] s where
  toProgress := Progress.refl s
  sub := by simp
  free := by simp

/-- The message of a command id is the one whose entry made it, or of the start. -/
theorem Migrating.messageId_of_lookup
    (h : Migrating s₀ all acted s) {k : CommandId} {o : OutboxRow}
    (ho : s.outbox.lookup (.inl k) = some o) :
    (∃ o₀, s₀.outbox.lookup (.inl k) = some o₀ ∧ o.messageId = o₀.messageId) ∨
      (s₀.outbox.lookup (.inl k) = none ∧
        ∃ q ∈ acted, s₀.commandIdOf q.2 = some k ∧
          o.messageId = some ((messageIdOfKey q.2.key).getD 0)) := by
  have hk := h.outbox k
  rw [ho, Option.map_some] at hk
  split at hk
  · rename_i q hq
    have hid := congrArg OutboxRow.messageId (Option.some.inj hk)
    unfold Store.enqueued at hid
    split at hid
    · rename_i o₀ ho₀
      left
      exact ⟨o₀, ho₀, hid⟩
    · rename_i hnone
      right
      exact ⟨hnone, q, List.mem_of_find?_eq_some hq,
        by simpa using List.find?_some hq, hid⟩
  · obtain ⟨o₀, ho₀, hrow⟩ := Option.map_eq_some_iff.mp hk.symm
    have hid := congrArg OutboxRow.messageId hrow
    left
    exact ⟨o₀, ho₀, hid.symm⟩

/-- A command of the start is still there, for the same message. -/
theorem Migrating.lookup_of_start
    (h : Migrating s₀ all acted s) {k : CommandId} {o₀ : OutboxRow}
    (ho₀ : s₀.outbox.lookup (.inl k) = some o₀) :
    ∃ o, s.outbox.lookup (.inl k) = some o ∧ o.messageId = o₀.messageId := by
  cases hs : s.outbox.lookup (.inl k) with
  | none =>
      have hk := h.outbox k
      rw [hs, ho₀] at hk
      split at hk
      · cases hk
      · cases hk
  | some o =>
      rcases h.messageId_of_lookup hs with ⟨o₁, ho₁, hid⟩ | ⟨hnone, -⟩
      · rw [ho₀] at ho₁
        cases ho₁
        exact ⟨o, rfl, hid⟩
      · rw [ho₀] at hnone
        cases hnone

/-- An entry that had its turn has its command in the outbox. -/
theorem Migrating.lookup_of_acted
    (hdist : Distinct s₀ all) (h : Migrating s₀ all acted s)
    {p : String × LegacyCommand} (hp : p ∈ acted) {k : CommandId}
    (hk : s₀.commandIdOf p.2 = some k) :
    (s.outbox.lookup (.inl k)).map OutboxRow.unclocked = some (s₀.enqueued k p) := by
  rw [h.outbox k]
  cases hfind : acted.find? (fun q => s₀.commandIdOf q.2 == some k) with
  | none =>
      have hnone := List.find?_eq_none.mp hfind p hp
      simp [hk] at hnone
  | some q =>
      have hq := List.mem_of_find?_eq_some hfind
      have hqk : s₀.commandIdOf q.2 = some k := by
        simpa using List.find?_some hfind
      rw [hdist p (h.sub p hp) q (h.sub q hq) k hk hqk]

theorem lookup_message_isSome {t : Table OutboxRow} {n : Nat} :
    (t.lookup (.inr n)).isSome = true ↔
      ∃ k o, t.lookup (.inl k) = some o ∧ o.messageId = some n := by
  constructor
  · intro hsome
    obtain ⟨o, ho⟩ := Option.isSome_iff_exists.mp hsome
    obtain ⟨hmem, hn⟩ := (t.lookup_eq_some_iff _ _).mp ho
    exact ⟨o.commandId, o, (t.lookup_eq_some_iff _ _).mpr ⟨hmem, by simp⟩,
      by simpa using hn⟩
  · rintro ⟨k, o, ho, hn⟩
    obtain ⟨hmem, -⟩ := (t.lookup_eq_some_iff _ _).mp ho
    exact Option.isSome_iff_exists.mpr
      ⟨o, (t.lookup_eq_some_iff _ _).mpr ⟨hmem, by simpa using hn⟩⟩

/-- Whether the outbox refuses an entry is settled at the start. -/
theorem Migrating.blocks_eq
    (hdist : Distinct s₀ all) (h : Migrating s₀ all acted s)
    {p : String × LegacyCommand} (hp : p ∈ all) :
    s.blocks p.2 = s₀.blocks p.2 := by
  cases hkey : messageIdOfKey p.2.key with
  | none =>
      unfold Store.blocks
      rw [hkey]
  | some n =>
  cases hr : s.message.byRowid n with
  | none =>
      unfold Store.blocks
      rw [hkey]
      dsimp only
      rw [hr, h.byRowid_none.mp hr]
  | some r =>
  obtain ⟨r₀, hr₀, hlocal⟩ := h.localMessageId hr
  rw [Bool.eq_iff_iff, Store.blocks_eq_true hkey hr, Store.blocks_eq_true hkey hr₀,
    hlocal]
  refine and_congr_right (fun hpos => ?_)
  have hk : s₀.commandIdOf p.2 = some (.msg r.localMessageId) := by
    rw [Store.commandIdOf_eq hkey hr₀, hlocal, if_neg (by omega)]
  constructor
  · rintro ⟨hnone, hsome⟩
    obtain ⟨k, o, ho, hon⟩ := lookup_message_isSome.mp hsome
    refine ⟨?_, lookup_message_isSome.mpr ?_⟩
    · cases hs₀ : s₀.outbox.lookup (.inl (.msg r.localMessageId)) with
      | none =>
          rfl
      | some o₀ =>
          obtain ⟨o', ho', -⟩ := h.lookup_of_start hs₀
          rw [hnone] at ho'
          cases ho'
    · rcases h.messageId_of_lookup ho with ⟨o₀, ho₀, hid⟩ | ⟨-, q, hq, hqk, hid⟩
      · exact ⟨k, o₀, ho₀, hid.symm.trans hon⟩
      · -- an entry for the same message has the same command id
        obtain ⟨n', r', hkey', hr', hpos', hk'⟩ := Store.commandIdOf_some hqk
        rw [hkey', Option.getD_some, hon, Option.some.injEq] at hid
        subst hid
        rw [hr₀, Option.some.injEq] at hr'
        subst hr'
        rw [hk', hlocal, hnone] at ho
        cases ho
  · rintro ⟨hnone, hsome⟩
    obtain ⟨k, o₀, ho₀, hon⟩ := lookup_message_isSome.mp hsome
    obtain ⟨o, ho, hid⟩ := h.lookup_of_start ho₀
    refine ⟨?_, lookup_message_isSome.mpr ⟨k, o, ho, hid.trans hon⟩⟩
    cases hs : s.outbox.lookup (.inl (.msg r.localMessageId)) with
    | none =>
        rfl
    | some o' =>
        rcases h.messageId_of_lookup hs with ⟨o₁, ho₁, -⟩ | ⟨-, q, hq, hqk, -⟩
        · rw [hnone] at ho₁
          cases ho₁
        · -- the entry had its turn, so it was not refused
          have hqp := hdist p hp q (h.sub q hq) _ hk hqk
          subst hqp
          have hfree := h.free p hq
          rw [← Bool.not_eq_true, Store.blocks_eq_true hkey hr₀, hlocal] at hfree
          exact absurd ⟨hpos, hnone, hsome⟩ hfree

/-- An upsert that succeeded was not refused. -/
theorem OutboxUpserted.unblocked
    {k : CommandId} {commandType : String} {n : Nat} {payload : List UInt8}
    {now : Int} {t t' : Table OutboxRow}
    (h : OutboxUpserted k commandType n 0 payload none now t t')
    (hnone : t.lookup (.inl k) = none) : (t.lookup (.inr n)).isSome = false := by
  cases h with
  | refreshed hexists =>
      rw [lookup_command_none_iff, hexists] at hnone
      cases hnone
  | inserted _ m hnew ho =>
      rw [Option.isSome_eq_false_iff, Option.isNone_iff_eq_none,
        Table.lookup_eq_none_iff]
      intro r hr hn
      have hrefused : t.insert
          (OutboxRow.pending k commandType n 0 payload none now) (fun _ => rfl) =
            none :=
        (Table.insert_eq_none_iff _ _ _).mpr
          ⟨r, hr, _, hn, by simp [OutboxRow.pending]⟩
      rw [hrefused] at ho
      cases ho

/-- The turn of an entry. -/
theorem Migrating.drained
    (hdist : Distinct s₀ all) (h : Migrating s₀ all acted s)
    {p : String × LegacyCommand} (hp : p ∈ all) {env : Env}
    {res : Except StoreError Verdict} {s' : Store}
    (hd : Drained p.1 p.2 env s res s') :
    ∃ acted', (∀ q ∈ acted, q ∈ acted') ∧ Migrating s₀ all acted' s' ∧
      ∀ v, res = .ok v → v ≠ .remaining → p ∈ acted' := by
  have hsub : ∀ q ∈ p :: acted, q ∈ all :=
    List.forall_mem_cons.mpr ⟨hp, h.sub⟩
  have hfree (hb : s.blocks p.2 = false) : ∀ q ∈ p :: acted, s₀.blocks q.2 = false := by
    rw [h.blocks_eq hdist hp] at hb
    exact List.forall_mem_cons.mpr ⟨hb, h.free⟩
  have hkeep : ∀ q ∈ acted, q ∈ p :: acted := by
    intro q hq
    exact List.mem_cons_of_mem _ hq
  cases hd with
  | stopped e hfault =>
      exact ⟨acted, fun q hq => hq, h, by simp⟩
  | faulty context hfault =>
      exact ⟨acted, fun q hq => hq, h, by simp⟩
  | taken messageId row hkey hrow hpos hnew htaken =>
      exact ⟨acted, fun q hq => hq, h, by simp⟩
  | malformed hkey =>
      refine ⟨p :: acted, hkeep, ?_, by simp⟩
      refine ⟨h.skip (by simp [hkey]), hsub, hfree ?_⟩
      unfold Store.blocks
      rw [hkey]
  | gone messageId hkey hrow =>
      refine ⟨p :: acted, hkeep, ?_, by simp⟩
      refine ⟨h.skip (by simp [hkey, hrow]), hsub, hfree ?_⟩
      unfold Store.blocks
      rw [hkey]
      dsimp only
      rw [hrow]
  | failed messageId row hkey hrow hzero =>
      obtain ⟨r₀, hr₀, hlocal⟩ := h.localMessageId hrow
      have hk : s₀.commandIdOf p.2 = none := by
        rw [Store.commandIdOf_eq hkey hr₀, hlocal, if_pos hzero]
      refine ⟨p :: acted, hkeep, ?_, by simp⟩
      refine ⟨⟨?_, ?_, h.rest⟩, hsub, hfree ?_⟩
      · exact h.mark hkey hrow (by rw [if_pos hzero])
      · intro k
        rw [List.find?_cons, hk]
        exact h.outbox k
      · rw [← Bool.not_eq_true, Store.blocks_eq_true hkey hrow]
        omega
  | moved messageId row o hkey hrow hpos ho =>
      obtain ⟨r₀, hr₀, hlocal⟩ := h.localMessageId hrow
      have hk : s₀.commandIdOf p.2 = some (.msg row.localMessageId) := by
        rw [Store.commandIdOf_eq hkey hr₀, hlocal, if_neg (by omega)]
      refine ⟨p :: acted, hkeep, ?_, by simp⟩
      refine ⟨⟨?_, ?_, h.rest⟩, hsub, hfree ?_⟩
      · exact h.mark hkey hrow (by rw [if_neg (by omega)])
      · refine h.upsert hkey hk ?_ ho
        intro q hq hqk
        exact hdist q (h.sub q hq) p hp _ hqk hk
      · rw [← Bool.not_eq_true, Store.blocks_eq_true hkey hrow]
        rintro ⟨-, hnone, hsome⟩
        rw [ho.unblocked hnone] at hsome
        cases hsome

/-- Without faults only an entry that the outbox refuses stays. -/
theorem Drained.calm
    {commandType : String} {c : LegacyCommand} {now : Int} {s s' : Store}
    {res : Except StoreError Verdict}
    (hd : Drained commandType c (.calm now) s res s') :
    ∃ v, res = .ok v ∧ (v = .remaining → s.blocks c = true) := by
  cases hd with
  | stopped e hfault =>
      cases hfault
  | faulty context hfault =>
      cases hfault
  | malformed hkey =>
      exact ⟨_, rfl, by simp⟩
  | gone messageId hkey hrow =>
      exact ⟨_, rfl, by simp⟩
  | moved messageId row o hkey hrow hpos ho =>
      exact ⟨_, rfl, by simp⟩
  | failed messageId row hkey hrow hzero =>
      exact ⟨_, rfl, by simp⟩
  | taken messageId row hkey hrow hpos hnew htaken =>
      exact ⟨_, rfl, fun _ =>
        (Store.blocks_eq_true hkey hrow).mpr ⟨hpos, hnew, htaken⟩⟩

end Turn

section Attempt

variable {s₀ s s' : Store} {acted all : List (String × LegacyCommand)}

/-- A queue of which only entries that had their turn are gone. -/
structure Left
    (acted : List (String × LegacyCommand)) (q q' : SledQueue) : Prop where
  commandType : q'.commandType = q.commandType
  items : ∃ keep : LegacyCommand → Bool, q'.items = q.items.filter keep ∧
    ∀ c ∈ q.items, keep c = false → (q.commandType, c) ∈ acted

theorem Left.refl (acted : List (String × LegacyCommand)) (q : SledQueue) :
    Left acted q q where
  commandType := rfl
  items := ⟨fun _ => true, by simp, by simp⟩

theorem Left.mono
    {acted' : List (String × LegacyCommand)} {q q' : SledQueue}
    (hsub : ∀ p ∈ acted, p ∈ acted') (h : Left acted q q') : Left acted' q q' where
  commandType := h.commandType
  items := by
    obtain ⟨keep, hitems, hgone⟩ := h.items
    exact ⟨keep, hitems, fun c hc hk => hsub _ (hgone c hc hk)⟩

theorem Left.trans
    {q q' q'' : SledQueue} (h : Left acted q q') (h' : Left acted q' q'') :
    Left acted q q'' where
  commandType := h'.commandType.trans h.commandType
  items := by
    obtain ⟨keep, hitems, hgone⟩ := h.items
    obtain ⟨keep', hitems', hgone'⟩ := h'.items
    refine ⟨fun c => keep c && keep' c, ?_, ?_⟩
    · rw [hitems', hitems, List.filter_filter]
      refine List.filter_congr ?_
      intro c hc
      exact Bool.and_comm _ _
    · intro c hc hk
      cases hkeep : keep c with
      | false =>
          exact hgone c hc hkeep
      | true =>
          simp only [hkeep, Bool.true_and] at hk
          rw [← h.commandType]
          refine hgone' c ?_ hk
          rw [hitems]
          exact List.mem_filter.mpr ⟨hc, hkeep⟩

/-- The entries of a queue are known by their keys. -/
theorem SledQueue.key_inj
    (q : SledQueue) {c d : LegacyCommand} (hc : c ∈ q.items) (hd : d ∈ q.items)
    (hkey : c.key = d.key) : c = d := by
  by_contra hne
  have hsymm : Std.Symm (fun a b : LegacyCommand => a.key ≠ b.key) :=
    ⟨fun _ _ hab => hab.symm⟩
  have hall : q.items.Pairwise (fun a b => a.key ≠ b.key) := by
    refine q.sorted.imp ?_
    intro a b hlt heq
    rw [heq] at hlt
    exact List.lt_irrefl _ hlt
  exact hall.forall hc hd hne hkey

theorem remaining_le_count (m : SledQueueMigration) (v : Verdict) :
    m.remaining ≤ (m.count v).remaining := by
  cases v with
  | remaining =>
      exact Nat.le_succ _
  | moved =>
      exact Nat.le_refl _
  | gone =>
      exact Nat.le_refl _
  | quarantined =>
      exact Nat.le_refl _

/-- The loop over a queue: what is done had its turn, the rest is counted. -/
theorem Migrating.scan
    (hdist : Distinct s₀ all) (h : Migrating s₀ all acted s)
    {t : String} {faults : QueueFaults} {items done : List LegacyCommand}
    {m : SledQueueMigration}
    {res : Option (SledQueueMigration × List LegacyCommand)}
    (hitems : ∀ c ∈ items, (t, c) ∈ all)
    (hrun : scanQueue t faults items m done s = (res, s')) :
    ∃ acted', (∀ p ∈ acted, p ∈ acted') ∧ Migrating s₀ all acted' s' ∧
      ∀ m' done', res = some (m', done') →
        (∀ c ∈ done', c ∈ done ∨ (c ∈ items ∧ (t, c) ∈ acted')) ∧
        (∀ c ∈ done, c ∈ done') ∧ m.remaining ≤ m'.remaining ∧
        (m'.remaining = 0 → ∀ c ∈ items, c ∈ done') := by
  induction items generalizing s m done acted with
  | nil =>
      cases hrun
      refine ⟨acted, fun p hp => hp, h, ?_⟩
      intro m' done' heq
      cases heq
      exact ⟨fun c hc => Or.inl hc, fun c hc => hc, Nat.le_refl _, by simp⟩
  | cons c cs ih =>
      unfold scanQueue at hrun
      split at hrun
      · cases hrun
        exact ⟨acted, fun p hp => hp, h, by simp⟩
      · cases hitem : drainItem t c (faults.env c.key) s with
        | mk r s₁ =>
        rw [hitem] at hrun
        obtain ⟨acted₁, hsub₁, h₁, hturn⟩ :=
          h.drained hdist (hitems c List.mem_cons_self) (drainItem_drained hitem)
        cases r with
        | error e =>
            cases hrun
            exact ⟨acted₁, hsub₁, h₁, by simp⟩
        | ok v =>
            obtain ⟨acted₂, hsub₂, h₂, hrest⟩ :=
              ih h₁ (fun d hd => hitems d (List.mem_cons_of_mem _ hd)) hrun
            refine ⟨acted₂, fun p hp => hsub₂ p (hsub₁ p hp), h₂, ?_⟩
            intro m' done' heq
            obtain ⟨hdone, hkept, hle, hall⟩ := hrest m' done' heq
            refine ⟨?_, ?_, (remaining_le_count m v).trans hle, ?_⟩
            · intro d hd
              rcases hdone d hd with hd | ⟨hd, hacted⟩
              · split at hd
                · exact Or.inl hd
                · rename_i hv
                  rcases List.mem_append.mp hd with hd | hd
                  · exact Or.inl hd
                  · rw [List.mem_singleton.mp hd]
                    exact Or.inr ⟨List.mem_cons_self, hsub₂ _ (hturn v rfl hv)⟩
              · exact Or.inr ⟨List.mem_cons_of_mem _ hd, hacted⟩
            · intro d hd
              refine hkept d ?_
              split
              · exact hd
              · exact List.mem_append_left _ hd
            · intro hzero d hd
              rcases List.mem_cons.mp hd with rfl | hd
              · refine hkept d ?_
                split
                · rename_i hv
                  subst hv
                  have : 0 < (m.count .remaining).remaining := Nat.succ_pos _
                  omega
                · simp
              · exact hall hzero d hd

/-- Without faults the loop ends, and only refused entries are not done. -/
theorem Migrating.scan_calm
    (hdist : Distinct s₀ all) (h : Migrating s₀ all acted s)
    {t : String} {now : Int} {items : List LegacyCommand} (m : SledQueueMigration)
    (done : List LegacyCommand) (hitems : ∀ c ∈ items, (t, c) ∈ all) :
    ∃ m' done' s', scanQueue t (.calm now) items m done s = (some (m', done'), s') ∧
      ∀ c ∈ items, c ∈ done' ∨ s₀.blocks c = true := by
  induction items generalizing s m done acted with
  | nil =>
      exact ⟨m, done, s, rfl, by simp⟩
  | cons c cs ih =>
      have hc := hitems c List.mem_cons_self
      cases hitem : drainItem t c (.calm now) s with
      | mk r s₁ =>
      have hd := drainItem_drained hitem
      obtain ⟨v, rfl, hv⟩ := hd.calm
      obtain ⟨acted₁, -, h₁, -⟩ := h.drained hdist hc hd
      have hcs : ∀ d ∈ cs, (t, d) ∈ all := by
        intro d hd
        exact hitems d (List.mem_cons_of_mem _ hd)
      obtain ⟨m', done', s', hrun, hrest⟩ :=
        ih h₁ (m.count v) (if v = .remaining then done else done ++ [c]) hcs
      have hstep : scanQueue t (.calm now) (c :: cs) m done s =
          (some (m', done'), s') := by
        rw [scanQueue]
        simp only [QueueFaults.calm, Bool.false_eq_true, if_false, hitem]
        exact hrun
      refine ⟨m', done', s', hstep, ?_⟩
      intro d hd
      rcases List.mem_cons.mp hd with rfl | hd
      · by_cases hstay : v = .remaining
        · exact Or.inr ((h.blocks_eq hdist hc).symm.trans (hv hstay))
        · obtain ⟨acted₂, -, -, hscan⟩ := h₁.scan hdist hcs hrun
          refine Or.inl ((hscan m' done' rfl).2.1 d ?_)
          rw [if_neg hstay]
          simp
      · exact hrest d hd

/-- The removals: an entry that is gone was to be removed. -/
theorem removeDone_removed
    {faults : QueueFaults} {done : List LegacyCommand} {m : SledQueueMigration}
    {q q' : SledQueue} {res : Option SledQueueMigration}
    (hrun : removeDone faults done m q = (res, q')) :
    q'.commandType = q.commandType ∧
      (∃ keep : LegacyCommand → Bool, q'.items = q.items.filter keep ∧
        ∀ c ∈ q.items, keep c = false → ∃ d ∈ done, d.key = c.key) ∧
      ∀ m', res = some m' → m.remaining ≤ m'.remaining ∧
        (m'.remaining = m.remaining → ∀ d ∈ done, ∀ c ∈ q'.items, c.key ≠ d.key) := by
  induction done generalizing m q with
  | nil =>
      cases hrun
      refine ⟨rfl, ⟨fun _ => true, by simp, by simp⟩, ?_⟩
      intro m' heq
      cases heq
      exact ⟨Nat.le_refl _, by simp⟩
  | cons d ds ih =>
      unfold removeDone at hrun
      split at hrun
      · obtain ⟨htype, ⟨keep, hitems, hgone⟩, hres⟩ := ih hrun
        have hfilter : q'.items = q.items.filter (fun c => c.key != d.key && keep c) := by
          rw [hitems, SledQueue.remove, List.filter_filter]
          refine List.filter_congr ?_
          intro c hc
          exact Bool.and_comm _ _
        refine ⟨htype, ⟨_, hfilter, ?_⟩, ?_⟩
        · intro c hc hk
          by_cases hkey : c.key = d.key
          · exact ⟨d, List.mem_cons_self, hkey.symm⟩
          · have hne : (c.key != d.key) = true := by simpa using hkey
            simp only [hne, Bool.true_and] at hk
            obtain ⟨e, he, hek⟩ := hgone c (List.mem_filter.mpr ⟨hc, hne⟩) hk
            exact ⟨e, List.mem_cons_of_mem _ he, hek⟩
        · intro m' heq
          obtain ⟨hle, hall⟩ := hres m' heq
          refine ⟨hle, ?_⟩
          intro hsame e he c hc
          rcases List.mem_cons.mp he with rfl | he
          · rw [hfilter, List.mem_filter, Bool.and_eq_true, bne_iff_ne] at hc
            exact hc.2.1
          · exact hall hsame e he c hc
      · obtain ⟨htype, ⟨keep, hitems, hgone⟩, hres⟩ := ih hrun
        refine ⟨htype, ⟨keep, hitems, ?_⟩, ?_⟩
        · intro c hc hk
          obtain ⟨e, he, hek⟩ := hgone c hc hk
          exact ⟨e, List.mem_cons_of_mem _ he, hek⟩
        · intro m' heq
          obtain ⟨hle, -⟩ := hres m' heq
          have hcount : (m.count .remaining).remaining = m.remaining + 1 := rfl
          exact ⟨by omega, by omega⟩
      · cases hrun
        exact ⟨rfl, ⟨fun _ => true, by simp, by simp⟩, by simp⟩

theorem removeDone_calm (now : Int) (done : List LegacyCommand)
    (m : SledQueueMigration) (q : SledQueue) :
    ∃ q', removeDone (.calm now) done m q = (some m, q') := by
  induction done generalizing q with
  | nil =>
      exact ⟨q, rfl⟩
  | cons d ds ih =>
      exact ih (q.remove d.key)

/-- One queue of an attempt. -/
theorem Migrating.drain
    (hdist : Distinct s₀ all) (h : Migrating s₀ all acted s)
    {faults : QueueFaults} {m : SledQueueMigration} {q q' : SledQueue}
    {res : Option SledQueueMigration}
    (hq : ∀ c ∈ q.items, (q.commandType, c) ∈ all)
    (hrun : drainQueue faults m q s = (res, q', s')) :
    ∃ acted', (∀ p ∈ acted, p ∈ acted') ∧ Migrating s₀ all acted' s' ∧
      Left acted' q q' ∧
      ∀ m', res = some m' → m.remaining ≤ m'.remaining ∧
        (m'.remaining = 0 → q'.items = []) := by
  unfold drainQueue at hrun
  split at hrun
  · cases hrun
    exact ⟨acted, fun p hp => hp, h, Left.refl acted q, by simp⟩
  · cases hscan : scanQueue q.commandType faults q.items m [] s with
    | mk scanned s₁ =>
    rw [hscan] at hrun
    obtain ⟨acted₁, hsub₁, h₁, hdone⟩ := h.scan hdist hq hscan
    cases scanned with
    | none =>
        cases hrun
        exact ⟨acted₁, hsub₁, h₁, Left.refl acted₁ q, by simp⟩
    | some scanned =>
        obtain ⟨m₁, done⟩ := scanned
        obtain ⟨hacted, -, hle, hall⟩ := hdone m₁ done rfl
        dsimp only at hrun
        cases hremove : removeDone faults done m₁ q with
        | mk removed q₁ =>
        rw [hremove] at hrun
        obtain ⟨htype, ⟨keep, hitems, hgone⟩, hres⟩ := removeDone_removed hremove
        have hleft : Left acted₁ q q₁ := by
          refine ⟨htype, keep, hitems, ?_⟩
          intro c hc hk
          obtain ⟨d, hd, hkey⟩ := hgone c hc hk
          rcases hacted d hd with hd | ⟨hdq, hd⟩
          · cases hd
          · rw [← q.key_inj hdq hc hkey]
            exact hd
        cases removed with
        | none =>
            cases hrun
            exact ⟨acted₁, hsub₁, h₁, hleft, by simp⟩
        | some m₂ =>
            cases hrun
            refine ⟨acted₁, hsub₁, h₁, hleft, ?_⟩
            intro m' heq
            split at heq
            · cases heq
            · cases heq
              obtain ⟨hle', hclear⟩ := hres m₂ rfl
              refine ⟨hle.trans hle', ?_⟩
              intro hzero
              rw [List.eq_nil_iff_forall_not_mem]
              intro c hc
              have hcq : c ∈ q.items := by
                rw [hitems] at hc
                exact (List.mem_filter.mp hc).1
              exact hclear (by omega) c (hall (by omega) c hcq) c hc rfl

theorem Migrating.drain_calm
    (hdist : Distinct s₀ all) (h : Migrating s₀ all acted s)
    {now : Int} {m : SledQueueMigration} {q q' : SledQueue}
    {res : Option SledQueueMigration}
    (hq : ∀ c ∈ q.items, (q.commandType, c) ∈ all)
    (hrun : drainQueue (.calm now) m q s = (res, q', s')) :
    (∃ m', res = some m') ∧ ∀ c ∈ q'.items, s₀.blocks c = true := by
  obtain ⟨m₁, done, s₁, hscan, hstay⟩ := h.scan_calm hdist m [] hq
  obtain ⟨q₁, hremove⟩ := removeDone_calm now done m₁ q
  obtain ⟨-, ⟨keep, hitems, -⟩, hres⟩ := removeDone_removed hremove
  have hcalm : drainQueue (.calm now) m q s = (some m₁, q₁, s₁) := by
    unfold drainQueue
    rw [hscan]
    dsimp only
    rw [hremove]
    rfl
  rw [hcalm] at hrun
  cases hrun
  refine ⟨⟨m₁, rfl⟩, ?_⟩
  intro c hc
  have hcq : c ∈ q.items := by
    rw [hitems] at hc
    exact (List.mem_filter.mp hc).1
  rcases hstay c hcq with hdone | hblocks
  · exact absurd rfl ((hres m₁ rfl).2 rfl c hdone c hc)
  · exact hblocks

/-- An attempt, queue by queue. -/
theorem Migrating.drains
    (hdist : Distinct s₀ all) (h : Migrating s₀ all acted s)
    {faults : Nat → QueueFaults} {m : SledQueueMigration} {qs qs' : List SledQueue}
    {res : Option SledQueueMigration}
    (hqs : ∀ q ∈ qs, ∀ c ∈ q.items, (q.commandType, c) ∈ all)
    (hrun : drainQueues faults m qs s = (res, qs', s')) :
    ∃ acted', (∀ p ∈ acted, p ∈ acted') ∧ Migrating s₀ all acted' s' ∧
      List.Forall₂ (Left acted') qs qs' ∧
      ∀ m', res = some m' → m.remaining ≤ m'.remaining ∧
        (m'.remaining = 0 → ∀ q ∈ qs', q.items = []) := by
  induction qs generalizing faults s m acted qs' with
  | nil =>
      cases hrun
      refine ⟨acted, fun p hp => hp, h, .nil, ?_⟩
      intro m' heq
      cases heq
      exact ⟨Nat.le_refl _, by simp⟩
  | cons q qs ih =>
      unfold drainQueues at hrun
      cases hdrain : drainQueue (faults 0) m q s with
      | mk r rest =>
      obtain ⟨q₁, s₁⟩ := rest
      rw [hdrain] at hrun
      obtain ⟨acted₁, hsub₁, h₁, hleft, hzero⟩ :=
        h.drain hdist (hqs q List.mem_cons_self) hdrain
      cases r with
      | none =>
          cases hrun
          refine ⟨acted₁, hsub₁, h₁, .cons hleft ?_, by simp⟩
          exact List.forall₂_same.mpr (fun q' _ => Left.refl acted₁ q')
      | some m₁ =>
          cases hrest : drainQueues (fun i => faults (i + 1)) m₁ qs s₁ with
          | mk r₂ rest =>
          obtain ⟨qs₂, s₂⟩ := rest
          dsimp only at hrun
          rw [hrest] at hrun
          cases hrun
          obtain ⟨acted₂, hsub₂, h₂, hlefts, hzeros⟩ :=
            ih h₁ (fun q' hq' => hqs q' (List.mem_cons_of_mem _ hq')) hrest
          refine ⟨acted₂, fun p hp => hsub₂ p (hsub₁ p hp), h₂,
            .cons (hleft.mono hsub₂) hlefts, ?_⟩
          intro m' heq
          obtain ⟨hle, hempty⟩ := hzero m₁ rfl
          obtain ⟨hle', hempties⟩ := hzeros m' heq
          refine ⟨hle.trans hle', ?_⟩
          intro hm' q' hq'
          rcases List.mem_cons.mp hq' with rfl | hq'
          · exact hempty (by omega)
          · exact hempties hm' q' hq'

theorem Migrating.drains_calm
    (hdist : Distinct s₀ all) (h : Migrating s₀ all acted s)
    {now : Int} {m : SledQueueMigration} {qs qs' : List SledQueue}
    {res : Option SledQueueMigration}
    (hqs : ∀ q ∈ qs, ∀ c ∈ q.items, (q.commandType, c) ∈ all)
    (hrun : drainQueues (fun _ => .calm now) m qs s = (res, qs', s')) :
    ∀ q ∈ qs', ∀ c ∈ q.items, s₀.blocks c = true := by
  induction qs generalizing s m acted qs' with
  | nil =>
      cases hrun
      simp
  | cons q qs ih =>
      unfold drainQueues at hrun
      cases hdrain : drainQueue (.calm now) m q s with
      | mk r rest =>
      obtain ⟨q₁, s₁⟩ := rest
      rw [hdrain] at hrun
      have hq := hqs q List.mem_cons_self
      obtain ⟨⟨m₁, rfl⟩, hstay⟩ := h.drain_calm hdist hq hdrain
      obtain ⟨acted₁, -, h₁, -⟩ := h.drain hdist hq hdrain
      cases hrest : drainQueues (fun _ => .calm now) m₁ qs s₁ with
      | mk r₂ rest =>
      obtain ⟨qs₂, s₂⟩ := rest
      dsimp only at hrun
      rw [hrest] at hrun
      cases hrun
      intro q' hq'
      rcases List.mem_cons.mp hq' with rfl | hq'
      · exact hstay
      · exact ih h₁ (fun q hq => hqs q (List.mem_cons_of_mem _ hq)) hrest q' hq'

end Attempt

section Frame

/-- A message row without its status and its clock. -/
def MessageRow.unmarked (r : MessageRow) : MessageRow :=
  { r with
    status := 0
    updatedAt := 0 }

/-- Two databases that differ in the outbox and in how far messages were sent only. -/
structure SameData (s s' : Store) : Prop where
  message : ∀ n, (s'.message.byRowid n).map MessageRow.unmarked =
    (s.message.byRowid n).map MessageRow.unmarked
  rest : { s' with message := s.message, outbox := s.outbox } = s

theorem SameData.refl (s : Store) : SameData s s where
  message _ := rfl
  rest := rfl

theorem SameData.trans {s t u : Store} (h : SameData s t) (h' : SameData t u) :
    SameData s u where
  message n := (h'.message n).trans (h.message n)
  rest := by
    have hrest := congrArg (fun x : Store => { x with message := s.message, outbox := s.outbox })
      h'.rest
    exact hrest.trans h.rest

/-- Marking a message changes how far it was sent only. -/
theorem SameData.mark (s : Store) (messageId : Nat) (status now : Int)
    (o : Table OutboxRow) :
    SameData s
      { s with
        message := s.message.modify (fun r => r.id == messageId)
          (fun r => { r with status := status, updatedAt := now })
          (fun _ => rfl) (fun _ => rfl)
        outbox := o } where
  message n := by
    rw [Table.byRowid_modify, Option.map_map]
    refine Option.map_congr ?_
    intro r _
    simp only [Function.comp_apply]
    split
    · rfl
    · rfl
  rest := rfl

theorem Drained.sameData
    {commandType : String} {c : LegacyCommand} {env : Env} {s s' : Store}
    {res : Except StoreError Verdict} (h : Drained commandType c env s res s') :
    SameData s s' := by
  cases h with
  | moved messageId row o _ _ _ _ => exact .mark s messageId 1 env.now o
  | failed messageId row _ _ _ => exact .mark s messageId 3 env.now s.outbox
  | stopped | malformed | gone | faulty | taken => exact .refl s

theorem sameData_scan
    (commandType : String) (faults : QueueFaults) (items : List LegacyCommand)
    (m : SledQueueMigration) (done : List LegacyCommand) (s : Store) :
    SameData s (scanQueue commandType faults items m done s).2 := by
  induction items generalizing m done s with
  | nil => exact .refl s
  | cons c cs ih =>
      unfold scanQueue
      split
      · exact .refl s
      · split
        next e s' hturn => exact (drainItem_drained hturn).sameData
        next v s' hturn => exact (drainItem_drained hturn).sameData.trans (ih _ _ _)

theorem sameData_drain
    (faults : QueueFaults) (m : SledQueueMigration) (q : SledQueue) (s : Store) :
    SameData s (drainQueue faults m q s).2.2 := by
  have hscan := sameData_scan q.commandType faults q.items m [] s
  unfold drainQueue
  split
  · exact .refl s
  · split
    next s' hrun =>
      rw [hrun] at hscan
      exact hscan
    next m' done s' hrun =>
      rw [hrun] at hscan
      split
      · exact hscan
      · exact hscan

theorem sameData_drains
    (faults : Nat → QueueFaults) (m : SledQueueMigration) (qs : List SledQueue)
    (s : Store) : SameData s (drainQueues faults m qs s).2.2 := by
  induction qs generalizing faults m s with
  | nil => exact .refl s
  | cons q qs ih =>
      have hfirst := sameData_drain (faults 0) m q s
      unfold drainQueues
      split
      next q' s' hrun =>
        rw [hrun] at hfirst
        exact hfirst
      next m' q' s' hrun =>
        rw [hrun] at hfirst
        exact hfirst.trans (ih _ _ _)

/-- An attempt, however it ends, writes the outbox and how far messages were sent. -/
theorem migrateSledQueues_sameData (faults : Nat → QueueFaults) (a : LegacyAccount) :
    SameData a.store (migrateSledQueuesIntoOutbox faults a).2.store :=
  sameData_drains faults ⟨0, 0, 0⟩ a.queues a.store

end Frame

section Session

variable {s₀ s s' : Store} {acted acted' all : List (String × LegacyCommand)}

/-- The server has acknowledged the message of an entry. -/
def Store.Acknowledged (s : Store) (c : LegacyCommand) : Prop :=
  ∃ n r, messageIdOfKey c.key = some n ∧ s.message.byRowid n = some r ∧
    (r.serverMessageId ≠ none ∨ r.status = 2)

/-- No entry is the command of a message that the server has acknowledged. -/
def Unacknowledged (s : Store) (all : List (String × LegacyCommand)) : Prop :=
  ∀ p ∈ all, ¬ s.Acknowledged p.2

/--
An entry that left its queue: it named no stored message, or its message is marked
as failed and has no identity, or its command is pending in the outbox.  In none of
these cases has the server acknowledged the message.
-/
def Placed (s : Store) (c : LegacyCommand) : Prop :=
  ¬ s.Acknowledged c ∧
    ∀ n r, messageIdOfKey c.key = some n → s.message.byRowid n = some r →
      if r.localMessageId = 0 then
        r.status = 3
      else
        ∃ o, s.outbox.lookup (.inl (.msg r.localMessageId)) = some o ∧
          o.status = "pending" ∧ o.payload = c.payload

/-- Two databases that differ in clocks and in row ids of the outbox only. -/
structure SameStore (s s' : Store) : Prop where
  message : ∀ n, (s.message.byRowid n).map MessageRow.unclocked =
    (s'.message.byRowid n).map MessageRow.unclocked
  outbox : ∀ k, (s.outbox.lookup (.inl k)).map OutboxRow.unclocked =
    (s'.outbox.lookup (.inl k)).map OutboxRow.unclocked
  rest : { s with message := s'.message, outbox := s'.outbox } = s'

/-- The entries of all queues, with the types of their commands. -/
def LegacyAccount.commands (a : LegacyAccount) : List (String × LegacyCommand) :=
  a.queues.flatMap (fun q => q.items.map (fun c => (q.commandType, c)))

/-- An attempt that nothing interrupts. -/
def LegacyAccount.uninterrupted (a : LegacyAccount) (now : Int) : LegacyAccount :=
  (migrateSledQueuesIntoOutbox (fun _ => .calm now) a).2

/-- A queue of which every entry is still there or placed. -/
def Accounted (s : Store) (q q' : SledQueue) : Prop :=
  q'.commandType = q.commandType ∧ (∀ c ∈ q'.items, c ∈ q.items) ∧
    ∀ c ∈ q.items, c ∈ q'.items ∨ Placed s c

theorem LegacyAccount.mem_commands {a : LegacyAccount} {q : SledQueue}
    (hq : q ∈ a.queues) {c : LegacyCommand} (hc : c ∈ q.items) :
    (q.commandType, c) ∈ a.commands :=
  List.mem_flatMap.mpr ⟨q, hq, List.mem_map.mpr ⟨c, hc, rfl⟩⟩

theorem Left.mem {q q' : SledQueue} (h : Left acted q q') {c : LegacyCommand}
    (hc : c ∈ q'.items) : c ∈ q.items := by
  obtain ⟨keep, hitems, -⟩ := h.items
  rw [hitems] at hc
  exact (List.mem_filter.mp hc).1

theorem Left.acted_of_not_mem {q q' : SledQueue} (h : Left acted q q')
    {c : LegacyCommand} (hc : c ∈ q.items) (hgone : c ∉ q'.items) :
    (q.commandType, c) ∈ acted := by
  obtain ⟨keep, hitems, hleft⟩ := h.items
  refine hleft c hc ?_
  cases hk : keep c with
  | false =>
      rfl
  | true =>
      rw [hitems] at hgone
      exact absurd (List.mem_filter.mpr ⟨hc, hk⟩) hgone

theorem actedOn_eq_true {n : Nat} :
    actedOn acted n = true ↔ ∃ p ∈ acted, messageIdOfKey p.2.key = some n := by
  simp only [actedOn, List.any_eq_true, beq_iff_eq]

/-- An entry that had its turn has not been acknowledged by it. -/
theorem Migrating.unacknowledged
    (h : Migrating s₀ all acted s) (hnew : Unacknowledged s₀ all)
    {p : String × LegacyCommand} (hp : p ∈ acted) : ¬ s.Acknowledged p.2 := by
  rintro ⟨n, r, hkey, hr, hsent⟩
  obtain ⟨r₀, hr₀, hrow⟩ := h.row hr
  rw [actedOn_eq_true.mpr ⟨p, hp, hkey⟩, if_pos rfl] at hrow
  have hstatus := congrArg MessageRow.status hrow
  have hserver := congrArg MessageRow.serverMessageId hrow
  unfold MessageRow.unclocked MessageRow.settled at hstatus hserver
  dsimp only at hstatus hserver
  rcases hsent with hsome | htwo
  · rw [hserver] at hsome
    exact hnew p (h.sub p hp) ⟨n, r₀, hkey, hr₀, Or.inl hsome⟩
  · rw [htwo] at hstatus
    split at hstatus
    · cases hstatus
    · cases hstatus

theorem Migrating.placed
    (hdist : Distinct s₀ all) (hnew : Unacknowledged s₀ all)
    (h : Migrating s₀ all acted s)
    {p : String × LegacyCommand} (hp : p ∈ acted) : Placed s p.2 := by
  refine ⟨h.unacknowledged hnew hp, ?_⟩
  intro n r hkey hr
  obtain ⟨r₀, hr₀, hrow⟩ := h.row hr
  obtain ⟨r₁, hr₁, hlocal⟩ := h.localMessageId hr
  rw [hr₀] at hr₁
  cases hr₁
  rw [actedOn_eq_true.mpr ⟨p, hp, hkey⟩, if_pos rfl] at hrow
  split
  · rename_i hzero
    have hstatus := congrArg MessageRow.status hrow
    unfold MessageRow.unclocked MessageRow.settled at hstatus
    dsimp only at hstatus
    rw [hstatus, hlocal, if_pos hzero]
  · rename_i hpos
    have hk : s₀.commandIdOf p.2 = some (.msg r.localMessageId) := by
      rw [Store.commandIdOf_eq hkey hr₀, hlocal, if_neg hpos]
    obtain ⟨o, ho, heq⟩ := Option.map_eq_some_iff.mp (h.lookup_of_acted hdist hp hk)
    have hstatus := congrArg OutboxRow.status heq
    have hpayload := congrArg OutboxRow.payload heq
    unfold Store.enqueued at hstatus hpayload
    refine ⟨o, ho, ?_, ?_⟩
    · split at hstatus
      · exact hstatus
      · exact hstatus
    · split at hpayload
      · exact hpayload
      · exact hpayload

/-- The entries that had their turn determine the database. -/
theorem Migrating.same
    (hdist : Distinct s₀ all) (h : Migrating s₀ all acted s)
    (h' : Migrating s₀ all acted' s') (hiff : ∀ p, p ∈ acted ↔ p ∈ acted') :
    SameStore s s' where
  message := by
    intro n
    have hacted : actedOn acted n = actedOn acted' n := by
      rw [Bool.eq_iff_iff, actedOn_eq_true, actedOn_eq_true]
      simp only [hiff]
    rw [h.message n, h'.message n, hacted]
  outbox := by
    intro k
    cases hfind : acted.find? (fun p => s₀.commandIdOf p.2 == some k) with
    | some p =>
        have hp := List.mem_of_find?_eq_some hfind
        have hk : s₀.commandIdOf p.2 = some k := by
          simpa using List.find?_some hfind
        rw [h.lookup_of_acted hdist hp hk,
          h'.lookup_of_acted hdist ((hiff p).mp hp) hk]
    | none =>
        have hfind' : acted'.find? (fun p => s₀.commandIdOf p.2 == some k) = none := by
          rw [List.find?_eq_none] at hfind ⊢
          intro p hp
          exact hfind p ((hiff p).mpr hp)
        rw [h.outbox k, h'.outbox k, hfind, hfind']
  rest := by
    obtain ⟨t, e, u, v, w, x⟩ := s
    obtain ⟨t', e', u', v', w', x'⟩ := s'
    have hrest := h.rest
    rw [← h'.rest] at hrest
    simp only [Store.mk.injEq] at hrest ⊢
    simp [hrest]

/-- What holds between two events. -/
structure Resumable
    (a : LegacyAccount) (acted : List (String × LegacyCommand)) (x : LegacySession) :
    Prop where
  migrating : Migrating a.store a.commands acted x.account.store
  left : List.Forall₂ (Left acted) a.queues x.account.queues
  empty : x.migrated = true → ∀ q ∈ x.account.queues, q.items = []

theorem forall₂_trans
    {α : Type} {R S T : α → α → Prop} (htrans : ∀ x y z, R x y → S y z → T x z)
    {xs ys zs : List α} (h : List.Forall₂ R xs ys) (h' : List.Forall₂ S ys zs) :
    List.Forall₂ T xs zs := by
  induction h generalizing zs with
  | nil =>
      cases h'
      exact .nil
  | cons hxy _ ih =>
      cases h' with
      | cons hyz hrest =>
          exact .cons (htrans _ _ _ hxy hyz) (ih hrest)

theorem exists_of_mem_right
    {α : Type} {R : α → α → Prop} {xs ys : List α} (h : List.Forall₂ R xs ys)
    {y : α} (hy : y ∈ ys) : ∃ x ∈ xs, R x y := by
  induction h with
  | nil =>
      cases hy
  | cons hxy _ ih =>
      rcases List.mem_cons.mp hy with rfl | hy
      · exact ⟨_, List.mem_cons_self, hxy⟩
      · obtain ⟨x, hx, hR⟩ := ih hy
        exact ⟨x, List.mem_cons_of_mem _ hx, hR⟩

variable {a : LegacyAccount} {x : LegacySession}

theorem Resumable.mem_commands (h : Resumable a acted x) :
    ∀ q ∈ x.account.queues, ∀ c ∈ q.items, (q.commandType, c) ∈ a.commands := by
  intro q' hq' c hc
  obtain ⟨q, hq, hleft⟩ := exists_of_mem_right h.left hq'
  rw [hleft.commandType]
  exact LegacyAccount.mem_commands hq (hleft.mem hc)

/-- One attempt, however it ends. -/
theorem Resumable.attempt
    (hdist : Distinct a.store a.commands) (h : Resumable a acted x)
    {faults : Nat → QueueFaults} {res : Option SledQueueMigration}
    {b : LegacyAccount}
    (hrun : migrateSledQueuesIntoOutbox faults x.account = (res, b)) :
    ∃ acted', (∀ p ∈ acted, p ∈ acted') ∧
      Migrating a.store a.commands acted' b.store ∧
      List.Forall₂ (Left acted') a.queues b.queues ∧
      ∀ m, res = some m → m.remaining = 0 → ∀ q ∈ b.queues, q.items = [] := by
  unfold migrateSledQueuesIntoOutbox at hrun
  cases hdrains : drainQueues faults ⟨0, 0, 0⟩ x.account.queues x.account.store with
  | mk r rest =>
  obtain ⟨qs, s⟩ := rest
  rw [hdrains] at hrun
  cases hrun
  obtain ⟨acted', hsub, hmigrating, hleft, hzero⟩ :=
    h.migrating.drains hdist h.mem_commands hdrains
  refine ⟨acted', hsub, hmigrating, ?_, fun m hm => (hzero m hm).2⟩
  exact forall₂_trans (fun q q' q'' hq hq' => (hq.mono hsub).trans hq') h.left hleft

theorem Resumable.step
    (hdist : Distinct a.store a.commands)
    (h : ∃ acted, Resumable a acted x) (e : LegacyEvent) :
    ∃ acted, Resumable a acted (x.step e) := by
  obtain ⟨acted, h⟩ := h
  cases e with
  | restart =>
      refine ⟨acted, h.migrating, h.left, ?_⟩
      intro hm
      cases hm
  | ensureUserStorage faults =>
      unfold LegacySession.step
      dsimp only
      split
      · exact ⟨acted, h⟩
      · cases hrun : migrateSledQueuesIntoOutbox faults x.account with
        | mk res b =>
        obtain ⟨acted', -, hmigrating, hleft, hzero⟩ := h.attempt hdist hrun
        cases res with
        | none =>
            refine ⟨acted', hmigrating, hleft, ?_⟩
            intro hm
            cases hm
        | some m =>
            refine ⟨acted', hmigrating, hleft, ?_⟩
            intro hm
            exact hzero m rfl (of_decide_eq_true hm)

theorem items_of_left
    (hfree : ∀ p ∈ acted, s₀.blocks p.2 = false) {qs qs' : List SledQueue}
    (hleft : List.Forall₂ (Left acted) qs qs')
    (hstay : ∀ q ∈ qs', ∀ c ∈ q.items, s₀.blocks c = true) :
    qs'.map SledQueue.items = qs.map (fun q => q.items.filter s₀.blocks) := by
  induction hleft with
  | nil =>
      rfl
  | @cons q q' qs qs' hq _ ih =>
      rw [List.map_cons, List.map_cons,
        ih (fun q hq => hstay q (List.mem_cons_of_mem _ hq))]
      obtain ⟨keep, hitems, hgone⟩ := hq.items
      have hkeep : q.items.filter keep = q.items.filter s₀.blocks := by
        refine List.filter_congr ?_
        intro c hc
        cases hk : keep c with
        | false =>
            exact (hfree _ (hgone c hc hk)).symm
        | true =>
            refine (hstay q' List.mem_cons_self c ?_).symm
            rw [hitems]
            exact List.mem_filter.mpr ⟨hc, hk⟩
      rw [hitems, hkeep]

/-- After an uninterrupted attempt only the refused entries are left. -/
theorem Resumable.finished
    (hdist : Distinct a.store a.commands) (h : Resumable a acted x) (now : Int) :
    ∃ acted', Migrating a.store a.commands acted' (x.account.uninterrupted now).store ∧
      (∀ p, p ∈ acted' ↔ p ∈ a.commands ∧ a.store.blocks p.2 = false) ∧
      (x.account.uninterrupted now).queues.map SledQueue.items =
        a.queues.map (fun q => q.items.filter a.store.blocks) := by
  cases hrun : migrateSledQueuesIntoOutbox (fun _ => .calm now) x.account with
  | mk res b =>
  obtain ⟨acted', -, hmigrating, hleft, -⟩ := h.attempt hdist hrun
  have hb : x.account.uninterrupted now = b := by
    unfold LegacyAccount.uninterrupted
    rw [hrun]
  rw [hb]
  have hstay : ∀ q ∈ b.queues, ∀ c ∈ q.items, a.store.blocks c = true := by
    unfold migrateSledQueuesIntoOutbox at hrun
    cases hdrains : drainQueues (fun _ => .calm now) ⟨0, 0, 0⟩ x.account.queues
        x.account.store with
    | mk r rest =>
    obtain ⟨qs, s⟩ := rest
    rw [hdrains] at hrun
    cases hrun
    exact h.migrating.drains_calm hdist h.mem_commands hdrains
  refine ⟨acted', hmigrating, ?_, ?_⟩
  · intro p
    constructor
    · intro hp
      exact ⟨hmigrating.sub p hp, hmigrating.free p hp⟩
    · rintro ⟨hp, hfree⟩
      obtain ⟨q, hq, hpq⟩ := List.mem_flatMap.mp hp
      obtain ⟨c, hc, rfl⟩ := List.mem_map.mp hpq
      obtain ⟨q', hq', hqq⟩ := exists_of_mem_right hleft.flip hq
      refine hqq.acted_of_not_mem hc ?_
      intro hc'
      rw [hstay q' hq' c hc'] at hfree
      cases hfree
  · exact items_of_left hmigrating.free hleft hstay

/--
The commands are not acknowledged yet.  Whatever faults and stops the attempts meet:
every entry is still in its queue or placed; a process holds the queues for migrated
only if they are empty; and an attempt that nothing interrupts ends where it would
have ended at the start.
-/
theorem migrateSledQueues_resumes
    (a : LegacyAccount) (hdist : Distinct a.store a.commands)
    (hnew : Unacknowledged a.store a.commands)
    (events : List LegacyEvent) (x : LegacySession)
    (hx : x = run LegacySession.step { account := a, migrated := false } events)
    (now now' : Int) :
    List.Forall₂ (Accounted x.account.store) a.queues x.account.queues ∧
      (x.migrated = true → (∀ q ∈ x.account.queues, q.items = []) ∧
        SameStore x.account.store (a.uninterrupted now').store) ∧
      SameStore (x.account.uninterrupted now).store (a.uninterrupted now').store ∧
      (x.account.uninterrupted now).queues.map SledQueue.items =
        (a.uninterrupted now').queues.map SledQueue.items ∧
      (a.uninterrupted now').queues.map SledQueue.items =
        a.queues.map (fun q => q.items.filter a.store.blocks) := by
  have hstart : Resumable a [] { account := a, migrated := false } := by
    refine ⟨Migrating.refl a.store a.commands, ?_, ?_⟩
    · exact List.forall₂_same.mpr (fun q _ => Left.refl [] q)
    · intro hm
      cases hm
  obtain ⟨acted, h⟩ := run_invariant (fun x => ∃ acted, Resumable a acted x)
    (fun x e hx => Resumable.step hdist hx e) ⟨[], hstart⟩ events
  rw [← hx] at h
  obtain ⟨last, hlast, hlastIff, hlastItems⟩ := h.finished hdist now
  obtain ⟨once, honce, honceIff, honceItems⟩ := hstart.finished hdist now'
  refine ⟨?_, ?_, ?_, ?_, honceItems⟩
  · refine h.left.imp ?_
    intro q q' hq
    refine ⟨hq.commandType, fun c hc => hq.mem hc, ?_⟩
    intro c hc
    by_cases hc' : c ∈ q'.items
    · exact Or.inl hc'
    · exact Or.inr (h.migrating.placed hdist hnew (hq.acted_of_not_mem hc hc'))
  · intro hm
    have hempty := h.empty hm
    refine ⟨hempty, h.migrating.same hdist honce ?_⟩
    intro p
    rw [honceIff]
    constructor
    · intro hp
      exact ⟨h.migrating.sub p hp, h.migrating.free p hp⟩
    · rintro ⟨hp, -⟩
      obtain ⟨q, hq, hpq⟩ := List.mem_flatMap.mp hp
      obtain ⟨c, hc, rfl⟩ := List.mem_map.mp hpq
      obtain ⟨q', hq', hqq⟩ := exists_of_mem_right h.left.flip hq
      refine hqq.acted_of_not_mem hc ?_
      rw [hempty q' hq']
      exact List.not_mem_nil
  · refine hlast.same hdist honce ?_
    intro p
    rw [hlastIff, honceIff]
  · rw [hlastItems, honceItems]

end Session

section Samples

/-- A database with one message for each of these local ids. -/
def legacyStore (localMessageIds : List Nat) : Store :=
  localMessageIds.foldl
    (fun s n => (createLocalMessage (.text 100 200 "hi") n).after (.calm 0) s)
    Store.empty

def legacyEntry (messageId : UInt8) (payload : List UInt8) : LegacyCommand where
  key := [0, 0, 0, 0, 0, 0, 0, messageId]
  payload := payload

/-- An account with these entries in the normal queue and one file queue. -/
def legacyAccount
    (s : Store) (normal file : List LegacyCommand)
    (hnormal : normal.Pairwise (fun a b => a.key < b.key))
    (hfile : ∀ items ∈ [file], items.Pairwise (fun a b => a.key < b.key)) :
    LegacyAccount where
  store := s
  queues := legacyQueues normal [file] hnormal hfile

/-- The process ends before the first removal. -/
def crashedRemoval : QueueFaults :=
  { QueueFaults.calm 1 with remove := fun _ => .crashed }

/-- No command can be written. -/
def brokenInsert : QueueFaults :=
  { QueueFaults.calm 1 with
    env := fun _ =>
      { now := 1
        fault := fun context => context == "outbox enqueue insert" } }

def sentAccount : LegacyAccount :=
  legacyAccount (legacyStore [7, 0]) [legacyEntry 1 [10], legacyEntry 2 [11]] []
    (by decide) (by decide)

/-- Whether the server has acknowledged the message of an entry, computed. -/
def Store.acknowledged (s : Store) (c : LegacyCommand) : Bool :=
  ((messageIdOfKey c.key).bind (fun n => s.message.byRowid n)).any
    (fun r => r.serverMessageId.isSome || r.status == 2)

theorem Store.acknowledged_of {s : Store} {c : LegacyCommand}
    (h : s.Acknowledged c) : s.acknowledged c = true := by
  obtain ⟨n, r, hkey, hr, hsent⟩ := h
  unfold Store.acknowledged
  rw [hkey, Option.bind_some, hr, Option.any_some]
  rcases hsent with hsome | htwo
  · rw [← Option.isSome_iff_ne_none] at hsome
    rw [hsome, Bool.true_or]
  · rw [htwo, beq_self_eq_true, Bool.or_true]

/-- A crash before the removals, a new process, and an attempt that is refused. -/
theorem migrateSledQueues_resumes_sent :
    SameStore
      ((run LegacySession.step { account := sentAccount, migrated := false }
        [.ensureUserStorage (fun _ => crashedRemoval), .restart,
          .ensureUserStorage (fun _ => brokenInsert)]).account.uninterrupted 5).store
      (sentAccount.uninterrupted 1).store := by
  have hsame : ∀ p ∈ sentAccount.commands, ∀ q ∈ sentAccount.commands,
      sentAccount.store.commandIdOf p.2 = sentAccount.store.commandIdOf q.2 →
        sentAccount.store.commandIdOf p.2 ≠ none → p = q := by
    decide +kernel
  have hdist : Distinct sentAccount.store sentAccount.commands := by
    intro p hp q hq k hk hqk
    exact hsame p hp q hq (hk.trans hqk.symm) (by simp [hk])
  have hcalm : ∀ p ∈ sentAccount.commands,
      sentAccount.store.acknowledged p.2 = false := by
    decide +kernel
  have hnew : Unacknowledged sentAccount.store sentAccount.commands := by
    intro p hp hsent
    have htrue := Store.acknowledged_of hsent
    rw [hcalm p hp] at htrue
    cases htrue
  exact (migrateSledQueues_resumes sentAccount hdist hnew _ _ rfl 5 1).2.2.1

/-- What the queues, the outbox and the messages show. -/
def LegacyAccount.shown (a : LegacyAccount) :
    List Nat × List (String × List UInt8) × List (Int × Option Nat) :=
  (a.queues.map (fun q => q.items.length),
    a.store.outbox.rows.map (fun o => (o.commandType, o.payload)),
    a.store.message.rows.map (fun r => (r.status, r.serverMessageId)))

def crashedAccount : LegacyAccount :=
  (migrateSledQueuesIntoOutbox (fun _ => crashedRemoval)
    (legacyAccount (legacyStore [7]) [legacyEntry 1 [10]] []
      (by decide) (by decide))).2

/-- The command was sent after the crash, and the server acknowledged it. -/
def acknowledgedAccount : LegacyAccount :=
  { crashedAccount with
    store := (outboxAckSent 1 900 5).after (.calm 2) crashedAccount.store }

/-- One message in two queues. -/
def twiceAccount : LegacyAccount :=
  legacyAccount (legacyStore [7]) [legacyEntry 1 [10]] [legacyEntry 1 [20]]
    (by decide) (by decide)

def malformedAccount : LegacyAccount :=
  legacyAccount (legacyStore [7]) [⟨[1], [10]⟩] [] (by decide) (by decide)

/--
A crash before the removals leaves the command in both places.  If it is then sent
and acknowledged, the next attempt puts it into the outbox again.  Of two entries
for one message the outbox keeps the one that came last, which a fault changes.  An
entry whose key is no message id is dropped, and no message is marked.
-/
theorem migrateSledQueues_interrupted :
    crashedAccount.shown = ([1, 0], [("message", [10])], [(1, none)]) ∧
      acknowledgedAccount.shown = ([1, 0], [], [(2, some 900)]) ∧
      (acknowledgedAccount.uninterrupted 3).shown =
        ([0, 0], [("message", [10])], [(1, some 900)]) ∧
      (twiceAccount.uninterrupted 1).shown =
        ([0, 0], [("message", [20])], [(1, none)]) ∧
      ((migrateSledQueuesIntoOutbox
        (fun i => if i = 0 then brokenInsert else .calm 1) twiceAccount).2.uninterrupted
          2).shown = ([0, 0], [("attachment", [10])], [(1, none)]) ∧
      (malformedAccount.uninterrupted 1).shown = ([0, 0], [], [(0, none)]) := by
  refine ⟨?_, ?_, ?_, ?_, ?_, ?_⟩
  all_goals decide +kernel

end Samples

end PrivchatSdk
