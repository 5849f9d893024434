import Mathlib.Data.List.DropRight
import Mathlib.Logic.Function.Basic
import PrivchatSdk.Lib.RequestLog
import PrivchatSdk.Lib.Run
import PrivchatSdk.MessageContent
import PrivchatSdk.Store.Upsert

/-!
# The storage actor

One thread owns the databases and takes commands from a channel.  It collects up to 32
upserts that stand one behind the other and writes them in one transaction; the command
that ends such a batch is dispatched after it.  Any task may send at any time, so a batch
also ends when the channel happens to be empty.

The actor answers as if it took the commands singly in the order they were sent
(`StorageActor.linearizes`); only the text of a failure to read the current user differs.
The commands besides the upsert are a parameter: nothing here depends on what they do.

`Shutdown` is an exception to that order.  The thread ends only at a `Shutdown` that
`run_loop` itself receives; one that ends a batch is dispatched like any other command,
and `handle_single_cmd` ignores it.  If commands wait in the channel, the number of
upserts before the `Shutdown` decides (`StorageActor.shutdown_stops_iff`).
-/

namespace PrivchatSdk

open StatementExec
open EventRun
open RequestLog (serveAll Follows)

universe u v

section LocalStore

/--
The file of the current user, the database of each user, and the entries of each
sled tree, which the key-value commands and those for accounts read and write.
-/
structure LocalStore where
  currentUser : Option String
  user : String → Store
  trees : String → List UInt8 → Option (List UInt8)

/-- `load_current_uid`. -/
def LocalStore.loadCurrentUid (store : LocalStore) (env : Env) :
    Except StoreError (Option String) :=
  match store.currentUser with
  | none => .ok none
  | some raw =>
      if env.fault "read current uid" then
        .error (.storage "read current uid" none)
      else if trim raw = "" then
        .ok none
      else
        .ok (some (trim raw))

/-- The error that the batch path makes of a failure to read the current user. -/
def loadUidError (_ : StoreError) : StoreError :=
  .storage "load uid" none

def uidNotSet : StoreError :=
  .invalidState "current uid is not set"

@[simp] theorem LocalStore.loadCurrentUid_user (store : LocalStore) (env : Env)
    (user : String → Store) :
    LocalStore.loadCurrentUid { store with user := user } env =
      store.loadCurrentUid env := by
  rfl

end LocalStore

section Commands

/-- A command; `ι` names the channel its sender waits on, `γ` are the other commands. -/
inductive StorageCmd (ι : Type u) (γ : Type v) where
  | upsertRemoteMessageWithResult (input : UpsertRemoteMessageInput) (resp : ι)
  | other (cmd : γ) (resp : ι)
  | shutdown
  deriving DecidableEq

def StorageCmd.isUpsert {ι : Type u} {γ : Type v} : StorageCmd ι γ → Bool
  | .upsertRemoteMessageWithResult .. => true
  | _ => false

def StorageCmd.isShutdown {ι : Type u} {γ : Type v} : StorageCmd ι γ → Bool
  | .shutdown => true
  | _ => false

/-- What a command is answered with. -/
inductive StorageAnswer (α : Type v) where
  | upserted (result : Except StoreError UpsertRemoteMessageResult)
  | other (result : α)

variable {ι γ α : Type}

/-- The handlers of the other commands, which may read and write everything. -/
abbrev OtherCommands (γ α : Type) : Type :=
  γ → Env → LocalStore → α × LocalStore

/-- The upsert of `handle_single_cmd`. -/
def LocalStore.upsertSingle
    (store : LocalStore) (env : Env) (input : UpsertRemoteMessageInput) :
    Except StoreError UpsertRemoteMessageResult × LocalStore :=
  match store.loadCurrentUid env with
  | .ok (some uid) =>
      let r := upsertRemoteMessageWithResult (parseU64 uid) input env (store.user uid)
      (r.1, { store with user := Function.update store.user uid r.2 })
  | .ok none => (.error uidNotSet, store)
  | .error e => (.error e, store)

/-- `handle_single_cmd`; the clock and the faults it meets come with the command. -/
def handleSingleCmd (other : OtherCommands γ α) (store : LocalStore) :
    Env × StorageCmd ι γ → List (ι × StorageAnswer α) × LocalStore
  | (env, .upsertRemoteMessageWithResult input resp) =>
      let r := store.upsertSingle env input
      ([(resp, .upserted r.1)], r.2)
  | (env, .other cmd resp) =>
      let r := other cmd env store
      ([(resp, .other r.1)], r.2)
  | (_, .shutdown) => ([], store)

/-- `flush_upsert_batch`. -/
def flushUpsertBatch
    (store : LocalStore) (env : Env) (batch : List (UpsertRemoteMessageInput × ι)) :
    List (ι × StorageAnswer α) × LocalStore :=
  if batch.isEmpty then
    ([], store)
  else
    match store.loadCurrentUid env with
    | .ok (some uid) =>
        let r := batchUpsertRemoteMessages (parseU64 uid) (batch.map Prod.fst) env
          (store.user uid)
        let results := match r.1 with
          | .ok results => results
          | .error _ => []
        ((batch.map Prod.snd).zip (results.map StorageAnswer.upserted),
          { store with user := Function.update store.user uid r.2 })
    | .ok none =>
        (batch.map (fun x => (x.2, .upserted (.error uidNotSet))), store)
    | .error e =>
        (batch.map (fun x => (x.2, .upserted (.error (loadUidError e)))), store)

end Commands

section Actor

variable {ι γ α : Type}

/-- Where the thread stands. -/
inductive ActorPhase (ι γ : Type) where
  /-- `rx.recv()` of `run_loop`. -/
  | receiving
  /-- `rx.try_recv()` with the batch collected so far. -/
  | draining (batch : List (UpsertRemoteMessageInput × ι))
  /-- The batch is written, and the command that ended it is next. -/
  | deferred (cmd : StorageCmd ι γ)
  | stopped

def ActorPhase.isStopped : ActorPhase ι γ → Bool
  | .stopped => true
  | _ => false

def upsertBatchLimit : Nat := 32

/-- The command of an item of a batch. -/
def batchCmd (x : UpsertRemoteMessageInput × ι) : StorageCmd ι γ :=
  .upsertRemoteMessageWithResult x.1 x.2

/-- The commands that are taken from the channel and not yet served. -/
def ActorPhase.inHand : ActorPhase ι γ → List (StorageCmd ι γ)
  | .draining batch => batch.map batchCmd
  | .deferred cmd => [cmd]
  | _ => []

structure StorageActor (ι γ α : Type) where
  store : LocalStore
  rx : List (StorageCmd ι γ)
  phase : ActorPhase ι γ
  /-- The answers, the first one first. -/
  answered : List (ι × StorageAnswer α)
  /-- The commands that were served; the program keeps no such record. -/
  served : List (Env × StorageCmd ι γ)
  /-- The commands whose senders are told that the actor is closed. -/
  refused : List (StorageCmd ι γ)

def StorageActor.start (store : LocalStore) : StorageActor ι γ α where
  store := store
  rx := []
  phase := .receiving
  answered := []
  served := []
  refused := []

/-- Serve one command with `handle_single_cmd`. -/
def StorageActor.handle
    (other : OtherCommands γ α) (a : StorageActor ι γ α) (env : Env)
    (cmd : StorageCmd ι γ) : StorageActor ι γ α :=
  let r := handleSingleCmd other a.store (env, cmd)
  { a with
    store := r.2
    phase := .receiving
    answered := a.answered ++ r.1
    served := a.served ++ [(env, cmd)] }

/-- `dispatch_cmd_inner`. -/
def StorageActor.dispatchCmdInner
    (other : OtherCommands γ α) (a : StorageActor ι γ α) (env : Env) :
    StorageCmd ι γ → StorageActor ι γ α
  | .upsertRemoteMessageWithResult input resp =>
      { a with phase := .draining [(input, resp)] }
  | cmd => a.handle other env cmd

/-- Write a batch and go on in `next`. -/
def StorageActor.flush
    (a : StorageActor ι γ α) (env : Env) (batch : List (UpsertRemoteMessageInput × ι))
    (next : ActorPhase ι γ) : StorageActor ι γ α :=
  let r := flushUpsertBatch a.store env batch
  { a with
    store := r.2
    phase := next
    answered := a.answered ++ r.1
    served := a.served ++ batch.map (fun x => (env, batchCmd x)) }

/-- One turn of `rx.try_recv()`. -/
def StorageActor.drain
    (a : StorageActor ι γ α) (env : Env)
    (batch : List (UpsertRemoteMessageInput × ι)) : StorageActor ι γ α :=
  if batch.length < upsertBatchLimit then
    match a.rx with
    | .upsertRemoteMessageWithResult input resp :: rest =>
        { a with rx := rest, phase := .draining (batch ++ [(input, resp)]) }
    | cmd :: rest =>
        { a with rx := rest }.flush env batch (.deferred cmd)
    | [] => a.flush env batch .receiving
  else
    a.flush env batch .receiving

/-- One turn of `run_loop`; a `recv` on an empty channel waits. -/
def StorageActor.receive
    (other : OtherCommands γ α) (a : StorageActor ι γ α) (env : Env) :
    StorageActor ι γ α :=
  match a.rx with
  | [] => a
  | .shutdown :: rest =>
      { a with
        rx := []
        phase := .stopped
        served := a.served ++ [(env, .shutdown)]
        refused := a.refused ++ rest }
  | .upsertRemoteMessageWithResult input resp :: rest =>
      { a with rx := rest, phase := .draining [(input, resp)] }
  | cmd :: rest => { a with rx := rest }.handle other env cmd

/-- A task sends a command, or the thread takes a turn. -/
inductive ActorEvent (ι γ : Type) where
  | send (cmd : StorageCmd ι γ)
  | turn (env : Env)

def StorageActor.turn
    (other : OtherCommands γ α) (a : StorageActor ι γ α) (env : Env) :
    StorageActor ι γ α :=
  match a.phase with
  | .receiving => a.receive other env
  | .draining batch => a.drain env batch
  | .deferred cmd => a.dispatchCmdInner other env cmd
  | .stopped => a

/-- A channel without a receiver takes no more commands. -/
def StorageActor.send (a : StorageActor ι γ α) (cmd : StorageCmd ι γ) :
    StorageActor ι γ α :=
  if a.phase.isStopped then
    { a with refused := a.refused ++ [cmd] }
  else
    { a with rx := a.rx ++ [cmd] }

def StorageActor.step
    (other : OtherCommands γ α) (a : StorageActor ι γ α) :
    ActorEvent ι γ → StorageActor ι γ α
  | .send cmd => a.send cmd
  | .turn env => a.turn other env

/-- What the tasks sent, in this order. -/
def sentBy (events : List (ActorEvent ι γ)) : List (StorageCmd ι γ) :=
  events.filterMap (fun
    | .send cmd => some cmd
    | .turn _ => none)

end Actor

section Turns

variable {ι γ α : Type} {other : OtherCommands γ α} {a : StorageActor ι γ α} {env : Env}
variable {batch : List (UpsertRemoteMessageInput × ι)} {rest : List (StorageCmd ι γ)}

theorem StorageActor.receive_shutdown (hrx : a.rx = .shutdown :: rest) :
    a.receive other env =
      { a with
        rx := []
        phase := .stopped
        served := a.served ++ [(env, .shutdown)]
        refused := a.refused ++ rest } := by
  unfold StorageActor.receive
  rw [hrx]

theorem StorageActor.receive_upsert
    {input : UpsertRemoteMessageInput} {resp : ι}
    (hrx : a.rx = .upsertRemoteMessageWithResult input resp :: rest) :
    a.receive other env = { a with rx := rest, phase := .draining [(input, resp)] } := by
  unfold StorageActor.receive
  rw [hrx]

theorem StorageActor.receive_other {cmd : γ} {resp : ι}
    (hrx : a.rx = .other cmd resp :: rest) :
    a.receive other env = { a with rx := rest }.handle other env (.other cmd resp) := by
  unfold StorageActor.receive
  rw [hrx]

theorem StorageActor.drain_upsert
    {input : UpsertRemoteMessageInput} {resp : ι}
    (hroom : batch.length < upsertBatchLimit)
    (hrx : a.rx = .upsertRemoteMessageWithResult input resp :: rest) :
    a.drain env batch =
      { a with rx := rest, phase := .draining (batch ++ [(input, resp)]) } := by
  unfold StorageActor.drain
  rw [if_pos hroom, hrx]

theorem StorageActor.drain_other {cmd : StorageCmd ι γ}
    (hroom : batch.length < upsertBatchLimit) (hcmd : cmd.isUpsert = false)
    (hrx : a.rx = cmd :: rest) :
    a.drain env batch = { a with rx := rest }.flush env batch (.deferred cmd) := by
  unfold StorageActor.drain
  rw [if_pos hroom, hrx]
  cases cmd with
  | upsertRemoteMessageWithResult => exact Bool.noConfusion hcmd
  | other => rfl
  | shutdown => rfl

theorem StorageActor.drain_empty
    (hroom : batch.length < upsertBatchLimit) (hrx : a.rx = []) :
    a.drain env batch = a.flush env batch .receiving := by
  unfold StorageActor.drain
  rw [if_pos hroom, hrx]

theorem StorageActor.drain_full (hfull : ¬ batch.length < upsertBatchLimit) :
    a.drain env batch = a.flush env batch .receiving := by
  unfold StorageActor.drain
  rw [if_neg hfull]

/-- The batch branch of `dispatch_cmd_inner` is not reached by such a command. -/
theorem StorageActor.dispatchCmdInner_of_not_upsert {cmd : StorageCmd ι γ}
    (h : cmd.isUpsert = false) :
    a.dispatchCmdInner other env cmd = a.handle other env cmd := by
  cases cmd with
  | upsertRemoteMessageWithResult => exact Bool.noConfusion h
  | other => rfl
  | shutdown => rfl

end Turns

section Linearization

variable {ι γ α : Type}

/--
Two answers to the same sender.  They are equal, or both say that the current user
could not be read.
-/
inductive SameAnswer : ι × StorageAnswer α → ι × StorageAnswer α → Prop
  | same (x : ι × StorageAnswer α) : SameAnswer x x
  | unreadUid (resp : ι) (e : StoreError) :
      SameAnswer (resp, .upserted (.error (loadUidError e))) (resp, .upserted (.error e))

theorem SameAnswer.resp {x y : ι × StorageAnswer α} (h : SameAnswer x y) : x.1 = y.1 := by
  cases h with
  | same => rfl
  | unreadUid => rfl

variable (other : OtherCommands γ α) {store : LocalStore} {env : Env}

/-- The store with the database of one user replaced. -/
def LocalStore.withUser (store : LocalStore) (uid : String) (s : Store) : LocalStore :=
  { store with user := Function.update store.user uid s }

theorem LocalStore.withUser_self (store : LocalStore) (uid : String) :
    store.withUser uid (store.user uid) = store := by
  unfold LocalStore.withUser
  rw [Function.update_eq_self]

/-- A single upsert writes to the database of the current user alone. -/
theorem LocalStore.upsertSingle_withUser
    {uid : String} (huid : store.loadCurrentUid env = .ok (some uid)) (s : Store)
    (input : UpsertRemoteMessageInput) :
    (store.withUser uid s).upsertSingle env input =
      ((upsertRemoteMessageWithResult (parseU64 uid) input env s).1,
        store.withUser uid (upsertRemoteMessageWithResult (parseU64 uid) input env s).2) := by
  have huid' : (store.withUser uid s).loadCurrentUid env = .ok (some uid) := huid
  simp only [LocalStore.upsertSingle, huid']
  simp only [LocalStore.withUser, Function.update_self, Function.update_idem]

/-- The upserts of a batch one by one, while a user is logged in. -/
theorem follows_upsertSingly
    {uid : String} (huid : store.loadCurrentUid env = .ok (some uid)) (s : Store)
    (batch : List (UpsertRemoteMessageInput × ι)) :
    Follows (handleSingleCmd other) SameAnswer (store.withUser uid s)
      (batch.map (fun x => (env, batchCmd x)))
      ((batch.map Prod.snd).zip
        ((upsertSingly (parseU64 uid) env s (batch.map Prod.fst)).1.map
          StorageAnswer.upserted))
      (store.withUser uid (upsertSingly (parseU64 uid) env s (batch.map Prod.fst)).2) := by
  induction batch generalizing s with
  | nil =>
      exact .nil
  | cons x batch ih =>
      obtain ⟨input, resp⟩ := x
      have hsingle := LocalStore.upsertSingle_withUser huid s input
      have hrest := ih (upsertRemoteMessageWithResult (parseU64 uid) input env s).2
      have hhead : handleSingleCmd other (store.withUser uid s)
          (env, batchCmd (input, resp)) =
            ([(resp, .upserted
              (upsertRemoteMessageWithResult (parseU64 uid) input env s).1)],
              store.withUser uid
                (upsertRemoteMessageWithResult (parseU64 uid) input env s).2) := by
        simp only [batchCmd, handleSingleCmd, hsingle]
      refine Follows.cons (env, batchCmd (input, resp))
        [(resp, StorageAnswer.upserted
          (upsertRemoteMessageWithResult (parseU64 uid) input env s).1)] ?_ ?_
      · rw [hhead]
        exact .cons (.same _) .nil
      · rw [hhead]
        exact hrest

/-- Nobody is logged in, or the file of the current user cannot be read. -/
theorem follows_constant
    {answer : UpsertRemoteMessageInput × ι → ι × StorageAnswer α}
    (hserve : ∀ x, ∃ y, handleSingleCmd other store (env, batchCmd x) = ([y], store) ∧
      SameAnswer (answer x) y)
    (batch : List (UpsertRemoteMessageInput × ι)) :
    Follows (handleSingleCmd other) SameAnswer store
      (batch.map (fun x => (env, batchCmd x))) (batch.map answer) store := by
  induction batch with
  | nil =>
      exact .nil
  | cons x batch ih =>
      obtain ⟨y, hy, hsame⟩ := hserve x
      refine Follows.cons (env, batchCmd x) [answer x] ?_ ?_
      · rw [hy]
        exact .cons hsame .nil
      · rw [hy]
        exact ih

/-- A batch does what its upserts do one by one. -/
theorem flushUpsertBatch_follows
    (store : LocalStore) (env : Env) (batch : List (UpsertRemoteMessageInput × ι)) :
    Follows (handleSingleCmd other) SameAnswer store
      (batch.map (fun x => (env, batchCmd x)))
      (flushUpsertBatch (α := α) store env batch).1
      (flushUpsertBatch (α := α) store env batch).2 := by
  unfold flushUpsertBatch
  split
  · rename_i hempty
    rw [List.isEmpty_iff.mp hempty]
    exact .nil
  · cases huid : store.loadCurrentUid env with
    | error e =>
        refine follows_constant other (fun x => ⟨(x.2, .upserted (.error e)), ?_, ?_⟩) batch
        · simp only [handleSingleCmd, batchCmd, LocalStore.upsertSingle, huid]
        · exact .unreadUid x.2 e
    | ok current =>
        cases current with
        | none =>
            refine follows_constant other
              (fun x => ⟨(x.2, .upserted (.error uidNotSet)), ?_, .same _⟩) batch
            simp only [handleSingleCmd, batchCmd, LocalStore.upsertSingle, huid]
        | some uid =>
            have hsingly := follows_upsertSingly other huid (store.user uid) batch
            rw [LocalStore.withUser_self] at hsingly
            simp only [batchUpsert_eq_upsertSingly]
            exact hsingly

/-- What holds of the actor after the commands `sent`. -/
structure StorageActor.Linear
    (other : OtherCommands γ α) (store : LocalStore) (sent : List (StorageCmd ι γ))
    (a : StorageActor ι γ α) : Prop where
  /-- Every command is in one place, and the places are in the order of sending. -/
  order : a.served.map Prod.snd ++ a.phase.inHand ++ a.rx ++ a.refused = sent
  follows : Follows (handleSingleCmd other) SameAnswer store a.served a.answered a.store
  /-- As long as the thread runs no sender is refused. -/
  runs : a.phase.isStopped = false → a.refused = []
  /-- Nothing waits for a thread that has ended. -/
  ended : a.phase.isStopped = true → a.rx = []

variable {other} {sent : List (StorageCmd ι γ)} {a : StorageActor ι γ α}

theorem StorageActor.Linear.start (other : OtherCommands γ α) (store : LocalStore) :
    (StorageActor.start store : StorageActor ι γ α).Linear other store [] where
  order := rfl
  follows := .nil
  runs := fun _ => rfl
  ended := fun _ => rfl

theorem StorageActor.handle_linear
    {cmd : StorageCmd ι γ}
    (horder : a.served.map Prod.snd ++ cmd :: a.rx = sent)
    (hfollows : Follows (handleSingleCmd other) SameAnswer store a.served a.answered a.store)
    (hrefused : a.refused = []) (env : Env) :
    (a.handle other env cmd).Linear other store sent where
  order := by
    simpa [StorageActor.handle, ActorPhase.inHand, hrefused] using horder
  follows := hfollows.append (.single SameAnswer.same (env, cmd))
  runs := fun _ => hrefused
  ended := Bool.noConfusion

theorem StorageActor.flush_linear
    {batch : List (UpsertRemoteMessageInput × ι)} {next : ActorPhase ι γ}
    (horder : a.served.map Prod.snd ++ (batch.map batchCmd ++ (next.inHand ++ a.rx)) = sent)
    (hfollows : Follows (handleSingleCmd other) SameAnswer store a.served a.answered a.store)
    (hrefused : a.refused = []) (hnext : next.isStopped = false) (env : Env) :
    (a.flush env batch next).Linear other store sent where
  order := by
    have hcmds : (batch.map (fun x => (env, batchCmd (γ := γ) x))).map Prod.snd =
        batch.map batchCmd := by
      rw [List.map_map]
      rfl
    simpa [StorageActor.flush, hcmds, hrefused] using horder
  follows := hfollows.append (flushUpsertBatch_follows other a.store env batch)
  runs := fun _ => hrefused
  ended := by
    intro hstopped
    exact Bool.noConfusion (hnext.symm.trans hstopped)

theorem StorageActor.Linear.receive
    (h : a.Linear other store sent) (hphase : a.phase = .receiving) (env : Env) :
    (a.receive other env).Linear other store sent := by
  have hrefused := h.runs (by rw [hphase]; rfl)
  have horder := h.order
  simp only [hphase, ActorPhase.inHand, hrefused, List.append_nil] at horder
  cases hrx : a.rx with
  | nil =>
      unfold StorageActor.receive
      rw [hrx]
      exact h
  | cons cmd rest =>
      rw [hrx] at horder
      cases cmd with
      | shutdown =>
          rw [StorageActor.receive_shutdown hrx]
          refine ⟨?_, ?_, Bool.noConfusion, fun _ => rfl⟩
          · simpa [ActorPhase.inHand, hrefused] using horder
          · have hserved := h.follows.append
              (.single SameAnswer.same (env, StorageCmd.shutdown))
            simpa [handleSingleCmd] using hserved
      | upsertRemoteMessageWithResult input resp =>
          rw [StorageActor.receive_upsert hrx]
          refine ⟨?_, h.follows, fun _ => hrefused, Bool.noConfusion⟩
          simpa [ActorPhase.inHand, batchCmd, hrefused] using horder
      | other cmd resp =>
          rw [StorageActor.receive_other hrx]
          exact StorageActor.handle_linear (a := { a with rx := rest }) horder h.follows
            hrefused env

theorem StorageActor.Linear.drain
    {batch : List (UpsertRemoteMessageInput × ι)}
    (h : a.Linear other store sent) (hphase : a.phase = .draining batch) (env : Env) :
    (a.drain env batch).Linear other store sent := by
  have hrefused := h.runs (by rw [hphase]; rfl)
  have horder := h.order
  simp only [hphase, ActorPhase.inHand, hrefused, List.append_nil, List.append_assoc]
    at horder
  by_cases hroom : batch.length < upsertBatchLimit
  · cases hrx : a.rx with
    | nil =>
        rw [StorageActor.drain_empty hroom hrx]
        exact StorageActor.flush_linear horder h.follows hrefused rfl env
    | cons cmd rest =>
        rw [hrx] at horder
        cases hcmd : cmd.isUpsert with
        | false =>
            rw [StorageActor.drain_other hroom hcmd hrx]
            exact StorageActor.flush_linear (a := { a with rx := rest }) horder h.follows
              hrefused rfl env
        | true =>
            cases cmd with
            | upsertRemoteMessageWithResult input resp =>
                rw [StorageActor.drain_upsert hroom hrx]
                refine ⟨?_, h.follows, fun _ => hrefused, Bool.noConfusion⟩
                simpa [ActorPhase.inHand, batchCmd, hrefused] using horder
            | shutdown => exact Bool.noConfusion hcmd
            | other => exact Bool.noConfusion hcmd
  · rw [StorageActor.drain_full hroom]
    exact StorageActor.flush_linear horder h.follows hrefused rfl env

theorem StorageActor.Linear.dispatchCmdInner
    {cmd : StorageCmd ι γ}
    (h : a.Linear other store sent) (hphase : a.phase = .deferred cmd) (env : Env) :
    (a.dispatchCmdInner other env cmd).Linear other store sent := by
  have hrefused := h.runs (by rw [hphase]; rfl)
  have horder := h.order
  simp only [hphase, ActorPhase.inHand, hrefused, List.append_nil, List.append_assoc,
    List.singleton_append] at horder
  cases cmd with
  | upsertRemoteMessageWithResult input resp =>
      refine ⟨?_, h.follows, fun _ => hrefused, Bool.noConfusion⟩
      simpa [StorageActor.dispatchCmdInner, ActorPhase.inHand, batchCmd, hrefused]
        using horder
  | shutdown =>
      exact StorageActor.handle_linear horder h.follows hrefused env
  | other cmd resp =>
      exact StorageActor.handle_linear horder h.follows hrefused env

theorem StorageActor.Linear.turn
    (h : a.Linear other store sent) (env : Env) :
    (a.turn other env).Linear other store sent := by
  unfold StorageActor.turn
  cases hphase : a.phase with
  | receiving => exact h.receive hphase env
  | draining batch => exact h.drain hphase env
  | deferred cmd => exact h.dispatchCmdInner hphase env
  | stopped => exact h

theorem StorageActor.Linear.send
    (h : a.Linear other store sent) (cmd : StorageCmd ι γ) :
    (a.send cmd).Linear other store (sent ++ [cmd]) := by
  have horder := h.order
  unfold StorageActor.send
  cases hphase : a.phase.isStopped with
  | true =>
      refine ⟨?_, h.follows, ?_, h.ended⟩
      · rw [← horder]
        simp
      · intro hruns
        exact Bool.noConfusion (hphase.symm.trans hruns)
  | false =>
      have hrefused := h.runs hphase
      refine ⟨?_, h.follows, h.runs, ?_⟩
      · rw [← horder]
        simp [hrefused]
      · intro hstopped
        exact Bool.noConfusion (hphase.symm.trans hstopped)

theorem StorageActor.Linear.run
    (h : a.Linear other store sent) (events : List (ActorEvent ι γ)) :
    (run (StorageActor.step other) a events).Linear other store (sent ++ sentBy events) := by
  induction events generalizing a sent with
  | nil =>
      rw [sentBy, List.filterMap_nil, List.append_nil]
      exact h
  | cons event events ih =>
      cases event with
      | send cmd =>
          have hrest := ih (h.send cmd)
          rw [List.append_assoc] at hrest
          exact hrest
      | turn env =>
          exact ih (h.turn env)

/--
Whatever the tasks send and however their sends fall between the turns of the thread,
every command is in exactly one place, in the order of sending: served, collected for a
batch, waiting in the channel or refused.  The databases and the answers are those of
the served commands, each handled on its own; an answer differs at most in the text for
a current user that cannot be read.
-/
theorem StorageActor.linearizes
    (other : OtherCommands γ α) (store : LocalStore) (events : List (ActorEvent ι γ)) :
    let a := run (StorageActor.step other) (StorageActor.start store) events
    a.served.map Prod.snd ++ a.phase.inHand ++ a.rx ++ a.refused = sentBy events ∧
      a.store = (serveAll (handleSingleCmd other) store a.served).2 ∧
      List.Forall₂ SameAnswer a.answered
        (serveAll (handleSingleCmd other) store a.served).1 := by
  have h := (StorageActor.Linear.start other store).run events
  exact ⟨h.order, h.follows.state, h.follows.answers⟩

end Linearization

section Shutdown

variable {ι γ α : Type}

/-- How many upserts stand at the end of the commands. -/
def trailingUpserts (cmds : List (StorageCmd ι γ)) : Nat :=
  (cmds.rtakeWhile StorageCmd.isUpsert).length

theorem trailingUpserts_upsert (cmds : List (StorageCmd ι γ)) {cmd : StorageCmd ι γ}
    (h : cmd.isUpsert = true) :
    trailingUpserts (cmds ++ [cmd]) = trailingUpserts cmds + 1 := by
  simp [trailingUpserts, h]

theorem trailingUpserts_other (cmds : List (StorageCmd ι γ)) {cmd : StorageCmd ι γ}
    (h : cmd.isUpsert = false) : trailingUpserts (cmds ++ [cmd]) = 0 := by
  simp [trailingUpserts, h]

/-- What the phase says of the upserts at the end of the commands taken so far. -/
def ActorPhase.CountedAt (done : List (StorageCmd ι γ)) : ActorPhase ι γ → Prop
  | .receiving => 32 ∣ trailingUpserts done
  | .draining batch =>
      0 < batch.length ∧ batch.length ≤ upsertBatchLimit ∧
        trailingUpserts done % 32 = batch.length % 32
  | .deferred cmd => cmd.isUpsert = false ∧ trailingUpserts done = 0
  | .stopped => False

/-- The turns that the thread may still need before it takes the next command. -/
def ActorPhase.weight : ActorPhase ι γ → Nat
  | .draining _ => 1
  | .deferred _ => 1
  | _ => 0

@[simp] theorem ActorPhase.weight_receiving :
    (ActorPhase.receiving : ActorPhase ι γ).weight = 0 := by
  rfl

@[simp] theorem ActorPhase.weight_draining (batch : List (UpsertRemoteMessageInput × ι)) :
    (ActorPhase.draining batch : ActorPhase ι γ).weight = 1 := by
  rfl

@[simp] theorem ActorPhase.weight_deferred (cmd : StorageCmd ι γ) :
    (ActorPhase.deferred cmd).weight = 1 := by
  rfl

variable {other : OtherCommands γ α} {a : StorageActor ι γ α} {n : Nat}
variable {pre done todo : List (StorageCmd ι γ)}

/-- A `Shutdown` waits behind `todo`; behind the first `n` commands `done` was taken. -/
structure StorageActor.Ahead
    (n : Nat) (done todo : List (StorageCmd ι γ)) (a : StorageActor ι γ α) : Prop where
  rx : ∃ post, a.rx = todo ++ .shutdown :: post
  taken : a.served.length + a.phase.inHand.length = n + done.length
  free : ∀ cmd ∈ todo, cmd.isShutdown = false
  counted : a.phase.CountedAt done

/-- The ways of a `Shutdown` behind the commands `pre`, each with a bound on the turns. -/
inductive StorageActor.Toward (n : Nat) (pre : List (StorageCmd ι γ)) :
    StorageActor ι γ α → Nat → Prop
  | ahead (a : StorageActor ι γ α) (done todo : List (StorageCmd ι γ))
      (hpre : pre = done ++ todo) (h : a.Ahead n done todo) :
      Toward n pre a (2 * (todo.length + 1) + a.phase.weight)
  | stopped (a : StorageActor ι γ α) (hphase : a.phase = .stopped)
      (hserved : a.served.length = n + pre.length + 1)
      (hdvd : 32 ∣ trailingUpserts pre) :
      Toward n pre a 0
  | dispatched (a : StorageActor ι γ α) (hphase : a.phase = .deferred .shutdown)
      (hserved : a.served.length = n + pre.length)
      (hdvd : ¬ 32 ∣ trailingUpserts pre) :
      Toward n pre a 1
  | ignored (a : StorageActor ι γ α) (hserved : n + pre.length + 1 ≤ a.served.length)
      (hphase : a.phase.isStopped = true → n + pre.length + 2 ≤ a.served.length)
      (hdvd : ¬ 32 ∣ trailingUpserts pre) :
      Toward n pre a 0

theorem ActorPhase.weight_le (phase : ActorPhase ι γ) : phase.weight ≤ 1 := by
  cases phase with
  | receiving => exact Nat.zero_le 1
  | draining batch => exact Nat.le_refl 1
  | deferred cmd => exact Nat.le_refl 1
  | stopped => exact Nat.zero_le 1

theorem StorageActor.Ahead.receive_cons
    (other : OtherCommands γ α) {cmd : StorageCmd ι γ} (h : a.Ahead n done (cmd :: todo))
    (hphase : a.phase = .receiving) (env : Env) :
    (a.receive other env).Ahead n (done ++ [cmd]) todo := by
  obtain ⟨post, hrx⟩ := h.rx
  have htaken := h.taken
  have hfree : ∀ c ∈ todo, c.isShutdown = false :=
    fun c hc => h.free c (List.mem_cons_of_mem cmd hc)
  have hcounted := h.counted
  rw [hphase] at htaken hcounted
  have hdvd : 32 ∣ trailingUpserts done := hcounted
  simp only [ActorPhase.inHand, List.length_nil] at htaken
  cases cmd with
  | shutdown =>
      exact Bool.noConfusion (h.free .shutdown List.mem_cons_self)
  | upsertRemoteMessageWithResult input resp =>
      have hcmd : (StorageCmd.upsertRemoteMessageWithResult (γ := γ) input resp).isUpsert =
          true := rfl
      rw [StorageActor.receive_upsert hrx]
      refine ⟨⟨post, rfl⟩, ?_, hfree, ?_⟩
      · simp [ActorPhase.inHand]
        omega
      · simp [ActorPhase.CountedAt, trailingUpserts_upsert done hcmd, upsertBatchLimit]
        omega
  | other cmd resp =>
      have hcmd : (StorageCmd.other cmd resp).isUpsert = false := rfl
      rw [StorageActor.receive_other hrx]
      refine ⟨⟨post, rfl⟩, ?_, hfree, ?_⟩
      · simp [StorageActor.handle, ActorPhase.inHand]
        omega
      · simp [StorageActor.handle, ActorPhase.CountedAt, trailingUpserts_other done hcmd]

theorem StorageActor.Ahead.receive_nil
    (h : a.Ahead n done []) (hphase : a.phase = .receiving) (env : Env) :
    StorageActor.Toward n done (a.receive other env) 0 := by
  obtain ⟨post, hrx⟩ := h.rx
  have htaken := h.taken
  have hcounted := h.counted
  rw [hphase] at htaken hcounted
  simp only [ActorPhase.inHand, List.length_nil] at htaken
  rw [StorageActor.receive_shutdown hrx]
  refine .stopped _ rfl ?_ hcounted
  simp
  omega

/-- A full batch is written before the next command is taken. -/
theorem StorageActor.Ahead.drain_full
    {batch : List (UpsertRemoteMessageInput × ι)} (h : a.Ahead n done todo)
    (hphase : a.phase = .draining batch) (hfull : ¬ batch.length < upsertBatchLimit)
    (env : Env) :
    (a.drain env batch).Ahead n done todo ∧ (a.drain env batch).phase = .receiving := by
  have htaken := h.taken
  have hcounted := h.counted
  rw [hphase] at htaken hcounted
  simp only [ActorPhase.inHand, List.length_map] at htaken
  obtain ⟨_, hle, hmod⟩ := hcounted
  rw [StorageActor.drain_full hfull]
  refine ⟨⟨h.rx, ?_, h.free, ?_⟩, rfl⟩
  · simp [StorageActor.flush, ActorPhase.inHand]
    omega
  · simp only [StorageActor.flush, ActorPhase.CountedAt]
    unfold upsertBatchLimit at hle hfull
    omega

theorem StorageActor.Ahead.drain_cons
    {cmd : StorageCmd ι γ} {batch : List (UpsertRemoteMessageInput × ι)}
    (h : a.Ahead n done (cmd :: todo)) (hphase : a.phase = .draining batch)
    (hroom : batch.length < upsertBatchLimit) (env : Env) :
    (a.drain env batch).Ahead n (done ++ [cmd]) todo := by
  obtain ⟨post, hrx⟩ := h.rx
  have htaken := h.taken
  have hfree : ∀ c ∈ todo, c.isShutdown = false :=
    fun c hc => h.free c (List.mem_cons_of_mem cmd hc)
  have hcounted := h.counted
  rw [hphase] at htaken hcounted
  simp only [ActorPhase.inHand, List.length_map] at htaken
  obtain ⟨_, _, hmod⟩ := hcounted
  cases hcmd : cmd.isUpsert with
  | false =>
      rw [StorageActor.drain_other hroom hcmd hrx]
      refine ⟨⟨post, rfl⟩, ?_, hfree, hcmd, trailingUpserts_other done hcmd⟩
      simp [StorageActor.flush, ActorPhase.inHand]
      omega
  | true =>
      cases cmd with
      | upsertRemoteMessageWithResult input resp =>
          rw [StorageActor.drain_upsert hroom hrx]
          refine ⟨⟨post, rfl⟩, ?_, hfree, ?_⟩
          · simp [ActorPhase.inHand]
            omega
          · simp [ActorPhase.CountedAt, trailingUpserts_upsert done hcmd]
            unfold upsertBatchLimit at hroom ⊢
            omega
      | shutdown => exact Bool.noConfusion hcmd
      | other => exact Bool.noConfusion hcmd

theorem StorageActor.Ahead.drain_nil
    {batch : List (UpsertRemoteMessageInput × ι)} (h : a.Ahead n done [])
    (hphase : a.phase = .draining batch) (hroom : batch.length < upsertBatchLimit)
    (env : Env) :
    StorageActor.Toward n done (a.drain env batch) 1 := by
  obtain ⟨post, hrx⟩ := h.rx
  have htaken := h.taken
  have hcounted := h.counted
  rw [hphase] at htaken hcounted
  simp only [ActorPhase.inHand, List.length_map] at htaken
  obtain ⟨hpos, _, hmod⟩ := hcounted
  rw [StorageActor.drain_other hroom rfl hrx]
  refine .dispatched _ rfl ?_ ?_
  · simp [StorageActor.flush]
    omega
  · unfold upsertBatchLimit at hroom
    omega

theorem StorageActor.Ahead.dispatchCmdInner
    (other : OtherCommands γ α) {cmd : StorageCmd ι γ} (h : a.Ahead n done todo) (hphase : a.phase = .deferred cmd)
    (env : Env) :
    (a.dispatchCmdInner other env cmd).Ahead n done todo ∧
      (a.dispatchCmdInner other env cmd).phase = .receiving := by
  have htaken := h.taken
  have hcounted := h.counted
  rw [hphase] at htaken hcounted
  obtain ⟨hcmd, htrailing⟩ := hcounted
  simp only [ActorPhase.inHand, List.length_cons, List.length_nil] at htaken
  rw [StorageActor.dispatchCmdInner_of_not_upsert hcmd]
  refine ⟨⟨h.rx, ?_, h.free, ?_⟩, rfl⟩
  · simp [StorageActor.handle, ActorPhase.inHand]
    omega
  · simp [StorageActor.handle, ActorPhase.CountedAt, htrailing]

/-- A turn takes no served command back, and the turn that ends the thread serves one. -/
theorem StorageActor.turn_served (other : OtherCommands γ α) (a : StorageActor ι γ α)
    (env : Env) :
    a.served.length ≤ (a.turn other env).served.length ∧
      ((a.turn other env).phase.isStopped = true → a.phase.isStopped = true ∨
        a.served.length + 1 ≤ (a.turn other env).served.length) := by
  cases hphase : a.phase with
  | stopped =>
      simp only [StorageActor.turn, hphase]
      exact ⟨Nat.le_refl _, fun _ => .inl rfl⟩
  | deferred cmd =>
      simp only [StorageActor.turn, hphase]
      cases cmd with
      | upsertRemoteMessageWithResult input resp =>
          exact ⟨Nat.le_refl _, Bool.noConfusion⟩
      | other cmd resp =>
          exact ⟨by simp [StorageActor.dispatchCmdInner, StorageActor.handle],
            Bool.noConfusion⟩
      | shutdown =>
          exact ⟨by simp [StorageActor.dispatchCmdInner, StorageActor.handle],
            Bool.noConfusion⟩
  | draining batch =>
      simp only [StorageActor.turn, hphase]
      unfold StorageActor.drain
      split
      · split
        · exact ⟨Nat.le_refl _, Bool.noConfusion⟩
        · exact ⟨by simp [StorageActor.flush], Bool.noConfusion⟩
        · exact ⟨by simp [StorageActor.flush], Bool.noConfusion⟩
      · exact ⟨by simp [StorageActor.flush], Bool.noConfusion⟩
  | receiving =>
      simp only [StorageActor.turn, hphase]
      unfold StorageActor.receive
      split
      · refine ⟨Nat.le_refl _, ?_⟩
        intro hstopped
        rw [hphase] at hstopped
        exact Bool.noConfusion hstopped
      · exact ⟨by simp, fun _ => .inr (by simp)⟩
      · exact ⟨Nat.le_refl _, Bool.noConfusion⟩
      · exact ⟨by simp [StorageActor.handle], Bool.noConfusion⟩

/-- A turn of the thread on the way to the `Shutdown`. -/
theorem StorageActor.Toward.turn
    (other : OtherCommands γ α) {r : Nat} (h : StorageActor.Toward n pre a r) (env : Env) :
    ∃ r', r' ≤ r - 1 ∧ StorageActor.Toward n pre (a.turn other env) r' := by
  cases h with
  | stopped hphase hserved hdvd =>
      have hturn : a.turn other env = a := by
        simp only [StorageActor.turn, hphase]
      rw [hturn]
      exact ⟨0, Nat.le_refl _, .stopped a hphase hserved hdvd⟩
  | dispatched hphase hserved hdvd =>
      have hturn : a.turn other env = a.handle other env .shutdown := by
        simp only [StorageActor.turn, hphase]
        rfl
      rw [hturn]
      refine ⟨0, Nat.le_refl _, .ignored _ ?_ Bool.noConfusion hdvd⟩
      simp [StorageActor.handle, hserved]
  | ignored hserved hphase hdvd =>
      obtain ⟨hle, hends⟩ := a.turn_served other env
      refine ⟨0, Nat.le_refl _, .ignored _ (hserved.trans hle) ?_ hdvd⟩
      intro hstopped
      rcases hends hstopped with hwas | hone
      · exact (hphase hwas).trans hle
      · omega
  | ahead done todo hpre h =>
      cases hphase : a.phase with
      | stopped =>
          have hcounted := h.counted
          rw [hphase] at hcounted
          exact hcounted.elim
      | receiving =>
          have hturn : a.turn other env = a.receive other env := by
            simp only [StorageActor.turn, hphase]
          rw [hturn]
          cases todo with
          | nil =>
              rw [List.append_nil] at hpre
              subst hpre
              exact ⟨0, Nat.zero_le _, h.receive_nil hphase env⟩
          | cons cmd todo =>
              have hnext := h.receive_cons other hphase env
              refine ⟨_, ?_, .ahead _ (done ++ [cmd]) todo (by simp [hpre]) hnext⟩
              have hweight := (a.receive other env).phase.weight_le
              simp only [List.length_cons, ActorPhase.weight_receiving]
              omega
      | draining batch =>
          have hturn : a.turn other env = a.drain env batch := by
            simp only [StorageActor.turn, hphase]
          rw [hturn]
          by_cases hroom : batch.length < upsertBatchLimit
          · cases todo with
            | nil =>
                rw [List.append_nil] at hpre
                subst hpre
                exact ⟨1, by simp, h.drain_nil hphase hroom env⟩
            | cons cmd todo =>
                have hnext := h.drain_cons hphase hroom env
                refine ⟨_, ?_, .ahead _ (done ++ [cmd]) todo (by simp [hpre]) hnext⟩
                have hweight := (a.drain env batch).phase.weight_le
                simp only [List.length_cons, ActorPhase.weight_draining]
                omega
          · obtain ⟨hnext, hreceiving⟩ := h.drain_full hphase hroom env
            refine ⟨_, ?_, .ahead _ done todo hpre hnext⟩
            simp only [hreceiving, ActorPhase.weight_receiving, ActorPhase.weight_draining]
            omega
      | deferred cmd =>
          have hturn : a.turn other env = a.dispatchCmdInner other env cmd := by
            simp only [StorageActor.turn, hphase]
          rw [hturn]
          obtain ⟨hnext, hreceiving⟩ := h.dispatchCmdInner other hphase env
          refine ⟨_, ?_, .ahead _ done todo hpre hnext⟩
          simp only [hreceiving, ActorPhase.weight_receiving, ActorPhase.weight_deferred]
          omega

theorem StorageActor.Toward.send {r : Nat} (h : StorageActor.Toward n pre a r)
    (cmd : StorageCmd ι γ) : StorageActor.Toward n pre (a.send cmd) r := by
  have hphase : (a.send cmd).phase = a.phase := by
    unfold StorageActor.send
    split <;> rfl
  have hserved : (a.send cmd).served = a.served := by
    unfold StorageActor.send
    split <;> rfl
  cases h with
  | stopped hstopped hlength hdvd =>
      exact .stopped _ (hphase.trans hstopped) (hserved ▸ hlength) hdvd
  | dispatched hdeferred hlength hdvd =>
      exact .dispatched _ (hphase.trans hdeferred) (hserved ▸ hlength) hdvd
  | ignored hlength hstopped hdvd =>
      refine .ignored _ (hserved ▸ hlength) ?_ hdvd
      rw [hphase, hserved]
      exact hstopped
  | ahead done todo hpre h =>
      rw [← hphase]
      refine .ahead _ done todo hpre ⟨?_, ?_, h.free, hphase ▸ h.counted⟩
      · obtain ⟨post, hrx⟩ := h.rx
        have hruns : a.phase.isStopped = false := by
          have hcounted := h.counted
          cases hwas : a.phase with
          | stopped =>
              rw [hwas] at hcounted
              exact hcounted.elim
          | receiving => rfl
          | draining batch => rfl
          | deferred cmd => rfl
        unfold StorageActor.send
        rw [hruns]
        exact ⟨post ++ [cmd], by simp [hrx]⟩
      · rw [hphase, hserved]
        exact h.taken

/-- How many turns the thread takes. -/
def turnsIn (events : List (ActorEvent ι γ)) : Nat :=
  events.countP (fun
    | .send _ => false
    | .turn _ => true)

theorem StorageActor.Toward.run
    (other : OtherCommands γ α) {r : Nat} (h : StorageActor.Toward n pre a r)
    (events : List (ActorEvent ι γ)) :
    ∃ r', r' ≤ r - turnsIn events ∧
      StorageActor.Toward n pre (EventRun.run (StorageActor.step other) a events) r' := by
  induction events generalizing a r with
  | nil =>
      exact ⟨r, Nat.le_refl _, h⟩
  | cons event events ih =>
      cases event with
      | send cmd =>
          obtain ⟨r', hr', hrest⟩ := ih (h.send cmd)
          refine ⟨r', ?_, hrest⟩
          simpa [turnsIn] using hr'
      | turn env =>
          obtain ⟨r₁, hr₁, hturn⟩ := h.turn other env
          obtain ⟨r', hr', hrest⟩ := ih hturn
          refine ⟨r', ?_, hrest⟩
          simp only [turnsIn, List.countP_cons_of_pos] at hr' ⊢
          omega

/-- Once no turn is needed any more it is decided what became of the `Shutdown`. -/
theorem StorageActor.Toward.decided {r : Nat} (h : StorageActor.Toward n pre a r)
    (hr : r = 0) :
    n + pre.length + 1 ≤ a.served.length ∧
      (a.phase = .stopped ∧ a.served.length = n + pre.length + 1 ↔
        upsertBatchLimit ∣ trailingUpserts pre) := by
  cases h with
  | stopped hstopped hlength hdvd =>
      exact ⟨hlength.ge, fun _ => hdvd, fun _ => ⟨hstopped, hlength⟩⟩
  | dispatched => omega
  | ahead => omega
  | ignored hlength hafter hdvd =>
      refine ⟨hlength, ?_, fun h => absurd h hdvd⟩
      rintro ⟨hstopped, hexact⟩
      have hlate := hafter (by rw [hstopped]; rfl)
      omega

/--
A thread that is about to receive, with `pre` and then a `Shutdown` in its channel, ends
at this `Shutdown` exactly if the upserts at the end of `pre` fill whole batches.  If
they do not, the `Shutdown` is dispatched as a command and the thread goes on.  More
commands may be sent meanwhile; it takes two turns a command at most.
-/
theorem StorageActor.shutdown_stops_iff
    (other : OtherCommands γ α) (a : StorageActor ι γ α)
    (pre post : List (StorageCmd ι γ)) (hphase : a.phase = .receiving)
    (hrx : a.rx = pre ++ .shutdown :: post)
    (hpre : ∀ cmd ∈ pre, cmd.isShutdown = false)
    (events : List (ActorEvent ι γ)) (hturns : 2 * (pre.length + 1) ≤ turnsIn events) :
    let b := EventRun.run (StorageActor.step other) a events
    a.served.length + pre.length + 1 ≤ b.served.length ∧
      (b.phase = .stopped ∧ b.served.length = a.served.length + pre.length + 1 ↔
        upsertBatchLimit ∣ trailingUpserts pre) := by
  have hahead : a.Ahead a.served.length [] pre := by
    refine ⟨⟨post, hrx⟩, ?_, hpre, ?_⟩
    · simp [hphase, ActorPhase.inHand]
    · simp [hphase, ActorPhase.CountedAt, trailingUpserts]
  have hstart : StorageActor.Toward a.served.length pre a (2 * (pre.length + 1)) := by
    have h := StorageActor.Toward.ahead a [] pre rfl hahead
    rwa [hphase] at h
  obtain ⟨r, hr, hend⟩ := hstart.run other events
  exact hend.decided (by omega)

/-- A fresh message, with a `Shutdown` sent right behind it. -/
def upsertThenShutdown : StorageActor Unit Unit Unit where
  store :=
    { currentUser := some "7"
      user := fun _ => Store.empty
      trees := fun _ _ => none }
  rx := [.upsertRemoteMessageWithResult (.text 1 0 5 9 1 "hello") (), .shutdown]
  phase := .receiving
  answered := []
  served := []
  refused := []

/-- The thread reads the `Shutdown` while it looks for more upserts, and stays. -/
theorem StorageActor.shutdown_stops_iff_upsert :
    let b := EventRun.run (StorageActor.step (fun _ _ store => ((), store)))
      upsertThenShutdown (List.replicate 4 (.turn (.calm 0)))
    2 ≤ b.served.length ∧ ¬ (b.phase = .stopped ∧ b.served.length = 2) := by
  have h := StorageActor.shutdown_stops_iff (fun _ _ store => ((), store))
    upsertThenShutdown [.upsertRemoteMessageWithResult (.text 1 0 5 9 1 "hello") ()] []
    rfl rfl (by decide) (List.replicate 4 (.turn (.calm 0))) (by decide)
  refine ⟨h.1, ?_⟩
  intro hstopped
  exact absurd (h.2.mp hstopped) (by decide)

end Shutdown

end PrivchatSdk
