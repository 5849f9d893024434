import PrivchatSdk.Lib.Run
import PrivchatSdk.Store.Outbox

/-!
# One own message and every order of its confirmations

A message with the local id `L` is created on this device and the server commits
it under the id `S`.  The acknowledgement, the echo push, copies from history or
a difference, and the reconciliation may reach the store in any order and any
number of times, and so may the creation: the host chooses `L`.

`selfSend_settles`: no operation hits the index over server ids, and after an
acknowledgement or a reconciliation exactly one row holds `S`: a created one,
marked sent, without a command in the outbox.  The events must meet
`SelfSend.ok`; `selfSend_created_again` is a run that does not.
-/

namespace PrivchatSdk

open StatementExec RelTable

/-- The store and what the run has done to the message so far. -/
structure SelfSend where
  store : Store
  /-- Row ids that the creations returned. -/
  localRows : List Nat
  /-- An acknowledgement or a reconciliation has succeeded. -/
  settled : Bool
  /-- An operation failed on the unique index over server ids. -/
  clash : Bool

/-- What can happen to the message; the payload of a copy is the server's. -/
inductive SelfSendEvent where
  | createLocalMessageQueued
      (input : NewMessage) (commandType : String) (payload : List UInt8)
      (routeKey : Option String)
  | outboxAckSent (messageId : Nat) (messageSeq : Int)
  | echo (input : UpsertRemoteMessageInput)
  | replay (input : UpsertRemoteMessageInput)
  | outboxReconcileSent (messageId : Nat)

namespace SelfSend

/-- Before the first event. -/
def start (s : Store) : SelfSend where
  store := s
  localRows := []
  settled := false
  clash := false

section Step

variable (uid localMessageId serverMessageId : Nat)

/-- A copy of the message that carries its local id, as a push does. -/
def echoInput (input : UpsertRemoteMessageInput) : UpsertRemoteMessageInput :=
  { input with
    serverMessageId := serverMessageId
    localMessageId := localMessageId
    fromUid := uid
    status := 2 }

/-- A copy without a local id, as history and most differences bring it. -/
def replayInput (input : UpsertRemoteMessageInput) : UpsertRemoteMessageInput :=
  { input with
    serverMessageId := serverMessageId
    localMessageId := 0
    fromUid := uid
    status := 2 }

/-- Whether a result is a clash on the index over server ids. -/
def isClash {α : Type} : Except StoreError α → Bool
  | .error e => e.onServerIdIndex
  | .ok _ => false

/-- Whether a result is a success. -/
def isOk {α : Type} : Except StoreError α → Bool
  | .error _ => false
  | .ok _ => true

/--
`await_server_message_id`: the server id that the row of a command holds.  The
reconciliation follows in the same turn of the drain.
-/
def awaitServerMessageId (s : Store) (messageId : Nat) : Option Nat :=
  (s.message.byRowid messageId).bind (fun row => row.serverMessageId)

/-- Take one event. -/
def step (st : SelfSend) (event : Env × SelfSendEvent) : SelfSend :=
  match event with
  | (env, .createLocalMessageQueued input commandType payload routeKey) =>
      let (res, s') := PrivchatSdk.createLocalMessageQueued
        { input with fromUid := uid } localMessageId commandType payload
        routeKey env st.store
      { st with
        store := s'
        localRows := st.localRows ++ res.toOption.toList
        clash := st.clash || isClash res }
  | (env, .outboxAckSent messageId messageSeq) =>
      if messageId ∈ st.localRows then
        let (res, s') := PrivchatSdk.outboxAckSent messageId serverMessageId
          messageSeq env st.store
        { st with
          store := s'
          settled := st.settled || isOk res
          clash := st.clash || isClash res }
      else
        st
  | (env, .echo input) =>
      let (res, s') := upsertRemoteMessageWithResult (some uid)
        (echoInput uid localMessageId serverMessageId input) env st.store
      { st with store := s', clash := st.clash || isClash res }
  | (env, .replay input) =>
      let (res, s') := upsertRemoteMessageWithResult (some uid)
        (replayInput uid serverMessageId input) env st.store
      { st with store := s', clash := st.clash || isClash res }
  | (env, .outboxReconcileSent messageId) =>
      if messageId ∈ st.localRows ∧
          awaitServerMessageId st.store messageId = some serverMessageId then
        let (res, s') := PrivchatSdk.outboxReconcileSent messageId
          serverMessageId env st.store
        { st with
          store := s'
          settled := st.settled || isOk res
          clash := st.clash || isClash res }
      else
        st

/-- Only the row `messageId` may hold the server id. -/
def HeldBy (s : Store) (messageId : Nat) : Prop :=
  ∀ row ∈ s.message.rows, row.serverMessageId = some serverMessageId →
    row.id = messageId

/-- A copy that is not stale finds no other row by its local id. -/
def FindsOne (s : Store) (input : UpsertRemoteMessageInput) : Prop :=
  ∀ row, s.byServerId input.serverMessageId = some row →
    input.stale row = false →
      ∀ other, s.byInputLocalId (some uid) input = some other → other.id = row.id

/--
An echo after a confirmation finds by the local id no other row than the one with
the server id.
-/
def ok (st : SelfSend) (event : Env × SelfSendEvent) : Prop :=
  match event.2 with
  | .echo input =>
      st.settled = true →
        FindsOne uid st.store (echoInput uid localMessageId serverMessageId input)
  | _ => True

/-- The row is the one row with the server id, sent and without command. -/
structure Settled (s : Store) (messageId : Nat) : Prop where
  sent : ∃ row, s.message.byRowid messageId = some row ∧
    row.serverMessageId = some serverMessageId ∧ row.status = 2
  heldBy : HeldBy serverMessageId s messageId
  noCommand : ∀ command ∈ s.outbox.rows, command.messageId ≠ some messageId

/-- No clash, and after a confirmation a created row is settled. -/
structure Good (st : SelfSend) : Prop where
  noClash : st.clash = false
  settled : st.settled = true →
    ∃ messageId ∈ st.localRows, Settled serverMessageId st.store messageId

end Step

section Invariant

variable {uid localMessageId serverMessageId : Nat}

/-- A step that keeps the settlement of each created row keeps the invariant. -/
theorem Good.of_store
    {st : SelfSend} (h : Good serverMessageId st) (s' : Store) {clash : Bool}
    (hclash : clash = false)
    (hsettled : st.settled = true → ∀ messageId ∈ st.localRows,
      Settled serverMessageId st.store messageId →
        Settled serverMessageId s' messageId) :
    Good serverMessageId
      { st with store := s', clash := st.clash || clash } where
  noClash := by simp [h.noClash, hclash]
  settled hs := by
    obtain ⟨messageId, hm, hset⟩ := h.settled hs
    exact ⟨messageId, hm, hsettled hs messageId hm hset⟩

/-- A step that settles a created row keeps the invariant. -/
theorem Good.of_settled
    {st : SelfSend} (h : Good serverMessageId st) {messageId : Nat}
    (hm : messageId ∈ st.localRows) {s' : Store}
    (hset : Settled serverMessageId s' messageId) :
    Good serverMessageId
      { st with
        store := s'
        settled := st.settled || true
        clash := st.clash || false } where
  noClash := by simp [h.noClash]
  settled _ := ⟨messageId, hm, hset⟩

/-- Once a row is settled an upsert that finds no other row writes to it. -/
theorem target_of_settled
    {s : Store} {input : UpsertRemoteMessageInput} {base : Table MessageRow}
    {target : MessageRow} {messageId : Nat}
    (hpos : 0 < input.serverMessageId) (hone : FindsOne uid s input)
    (hset : Settled input.serverMessageId s messageId)
    (htarget : UpsertTarget (some uid) input s base target) :
    base = s.message ∧ target.id = messageId := by
  obtain ⟨row, hrow, hsid, -⟩ := hset.sent
  have hmem := ((Table.byRowid_eq_some_iff _ _ _).mp hrow).1
  cases htarget with
  | byServerId _ htrow hfresh hlocal =>
      obtain ⟨htmem, htsid⟩ := (s.byServerId_eq_some_iff hpos target).mp htrow
      exact ⟨rfl, hset.heldBy target htmem htsid⟩
  | byLocalId _ hnone htrow hfresh =>
      exact absurd hsid ((s.byServerId_eq_none_iff _).mp hnone row hmem)
  | merge drop _ hdrop hfresh hkeep hne =>
      exact absurd (hone drop hdrop hfresh target hkeep) hne

/-- An upsert of the message that finds no other row keeps a row settled. -/
theorem upsert_settled
    {s s' : Store} {input : UpsertRemoteMessageInput} {env : Env}
    {res : Except StoreError UpsertRemoteMessageResult} {messageId : Nat}
    (hsent : input.status = 2) (hone : FindsOne uid s input)
    (h : upsertRemoteMessageWithResult (some uid) input env s = (res, s'))
    (hset : Settled input.serverMessageId s messageId) :
    Settled input.serverMessageId s' messageId := by
  obtain ⟨hmessages, houtbox, -⟩ := upsert_messages h
  obtain ⟨row, hrow, hsid, hstatus⟩ := hset.sent
  have hmem := ((Table.byRowid_eq_some_iff _ _ _).mp hrow).1
  refine
    { sent := ?_
      heldBy := ?_
      noCommand := by rw [houtbox]; exact hset.noCommand }
  · cases hmessages with
    | same _ hsame =>
        rw [hsame]
        exact hset.sent
    | dropped _ target hpos htarget =>
        rw [(target_of_settled hpos hone hset htarget).1]
        exact hset.sent
    | written base _ target hpos htarget ht =>
        obtain ⟨hbase, hid⟩ := target_of_settled hpos hone hset htarget
        refine ⟨input.overwrite env.now row, ?_, rfl, hsent⟩
        have hrid : row.id = messageId :=
          ((Table.byRowid_eq_some_iff _ _ _).mp hrow).2
        rw [byRowid_of_update ht, hbase, hrow, hid]
        simp [hrid]
    | inserted _ hpos hnone hnoneLocal ht =>
        exact absurd hsid ((s.byServerId_eq_none_iff _).mp hnone row hmem)
  · cases hmessages with
    | same _ hsame =>
        rw [HeldBy, hsame]
        exact hset.heldBy
    | dropped _ target hpos htarget =>
        rw [HeldBy, (target_of_settled hpos hone hset htarget).1]
        exact hset.heldBy
    | written base _ target hpos htarget ht =>
        obtain ⟨hbase, hid⟩ := target_of_settled hpos hone hset htarget
        intro other hother hosid
        rcases mem_of_update ht hother with ⟨r₀, -, hr₀, rfl⟩ | ⟨hother, -⟩
        · rw [← hid, ← hr₀]
          rfl
        · rw [hbase] at hother
          exact hset.heldBy other hother hosid
    | inserted _ hpos hnone hnoneLocal ht =>
        exact absurd hsid ((s.byServerId_eq_none_iff _).mp hnone row hmem)

/-- An upsert of the message, echo or replay, keeps the invariant. -/
theorem Good.upsert
    {st : SelfSend} (h : Good serverMessageId st)
    {input : UpsertRemoteMessageInput} {env : Env}
    (hsid : input.serverMessageId = serverMessageId) (hsent : input.status = 2)
    (hone : st.settled = true → FindsOne uid st.store input) :
    Good serverMessageId
      { st with
        store :=
          (upsertRemoteMessageWithResult (some uid) input env st.store).2
        clash := st.clash ||
          isClash
            (upsertRemoteMessageWithResult (some uid) input env st.store).1 } := by
  subst hsid
  cases hrun : upsertRemoteMessageWithResult (some uid) input env st.store with
  | mk res s' =>
  refine h.of_store s' ?_ ?_
  · cases res with
    | ok v => rfl
    | error e => exact (upsert_messages hrun).2.2 e rfl
  · intro hs messageId _ hset
    exact upsert_settled hsent (hone hs) hrun hset

/-- A creation adds a row without a server id and a command for the new row. -/
theorem Good.create
    {st : SelfSend} (h : Good serverMessageId st)
    {input : NewMessage} {commandType : String} {payload : List UInt8}
    {routeKey : Option String} {env : Env} {s' : Store}
    {res : Except StoreError Nat}
    (hrun : PrivchatSdk.createLocalMessageQueued input localMessageId
      commandType payload routeKey env st.store = (res, s')) :
    Good serverMessageId
      { st with
        store := s'
        localRows := st.localRows ++ res.toOption.toList
        clash := st.clash || isClash res } := by
  cases createLocalMessageQueued_outcome hrun with
  | failed e he =>
      have hkeep := h.of_store st.store he (fun _ _ _ hset => hset)
      simpa [Except.toOption, isClash] using hkeep
  | created t o n hpos ht ho =>
      obtain ⟨-, hrows, -⟩ := Table.rows_of_insert ht
      obtain ⟨-, horows, -⟩ := Table.rows_of_insert ho
      refine { noClash := by simp [h.noClash, isClash], settled := ?_ }
      intro hs
      obtain ⟨messageId, hm, hset⟩ := h.settled hs
      obtain ⟨row, hrow, hsid, hstatus⟩ := hset.sent
      have hlt := Table.lt_of_byRowid _ hrow
      refine ⟨messageId, List.mem_append_left _ hm, ?_⟩
      refine { sent := ?_, heldBy := ?_, noCommand := ?_ }
      · refine ⟨row, ?_, hsid, hstatus⟩
        rw [Table.byRowid_of_append (fun _ => rfl) hrows, if_neg (by omega)]
        exact hrow
      · intro other hmem hosid
        rw [hrows] at hmem
        rcases List.mem_append.mp hmem with hmem | hmem
        · exact hset.heldBy other hmem hosid
        · rw [List.mem_singleton.mp hmem] at hosid
          cases hosid
      · intro command hmem hcm
        rw [horows] at hmem
        rcases List.mem_append.mp hmem with hmem | hmem
        · exact hset.noCommand command hmem hcm
        · rw [List.mem_singleton.mp hmem] at hcm
          have heq : st.store.message.nextRowid = messageId := by
            simpa [OutboxRow.pending] using hcm
          omega

/-- An acknowledgement that succeeds settles the message. -/
theorem settled_of_ack
    {s s' : Store} {messageId : Nat} {messageSeq : Int} {env : Env}
    (h : PrivchatSdk.outboxAckSent messageId serverMessageId messageSeq env s =
      (.ok .unit, s')) :
    Settled serverMessageId s' messageId := by
  cases outboxAckSent_outcome h with
  | acked row t hrow ht =>
      refine { sent := ?_, heldBy := ?_, noCommand := ?_ }
      · have hrid : row.id = messageId :=
          ((Table.byRowid_eq_some_iff _ _ _).mp hrow).2
        refine ⟨row.acknowledge serverMessageId messageSeq env.now, ?_, rfl, rfl⟩
        rw [byRowid_of_update ht, byRowid_dedupe_self, hrow]
        simp [hrid]
      · intro other hmem hosid
        rcases mem_of_update ht hmem with ⟨r₀, -, hr₀, rfl⟩ | ⟨hmem, hne⟩
        · exact hr₀
        · have hdel := ((Table.mem_deleteWhere _ _ other).mp hmem).2
          simp [hosid, hne] at hdel
      · intro command hmem
        have hdel := ((Table.mem_deleteWhere _ _ command).mp hmem).2
        simpa using hdel

/-- The server id that the drain found is held by the row of the command alone. -/
theorem heldBy_of_awaited
    {s : Store} {messageId : Nat} (hpos : 0 < serverMessageId)
    (h : awaitServerMessageId s messageId = some serverMessageId) :
    (∃ row, s.message.byRowid messageId = some row) ∧
      HeldBy serverMessageId s messageId := by
  obtain ⟨row, hrow, hsid⟩ := Option.bind_eq_some_iff.mp h
  obtain ⟨hmem, hid⟩ := (Table.byRowid_eq_some_iff _ _ _).mp hrow
  refine ⟨⟨row, hrow⟩, ?_⟩
  intro other hother hosid
  have hfound := (s.byServerId_eq_some_iff hpos row).mpr ⟨hmem, hsid⟩
  rw [eq_of_byServerId hpos hfound hother hosid]
  exact hid

/-- A reconciliation of a stored row that no other row rivals settles it. -/
theorem settled_of_reconcile
    {s s' : Store} {messageId : Nat} {env : Env}
    (hrow : ∃ row, s.message.byRowid messageId = some row)
    (hheld : HeldBy serverMessageId s messageId)
    (h : PrivchatSdk.outboxReconcileSent messageId serverMessageId env s =
      (.ok .unit, s')) :
    Settled serverMessageId s' messageId := by
  cases outboxReconcileSent_outcome h with
  | reconciled t ht =>
      obtain ⟨row, hrow⟩ := hrow
      refine { sent := ?_, heldBy := ?_, noCommand := ?_ }
      · have hrid : row.id = messageId :=
          ((Table.byRowid_eq_some_iff _ _ _).mp hrow).2
        refine ⟨row.reconcile serverMessageId env.now, ?_, rfl, rfl⟩
        rw [byRowid_of_update ht, hrow]
        simp [hrid]
      · intro other hmem hosid
        rcases mem_of_update ht hmem with ⟨r₀, -, hr₀, rfl⟩ | ⟨hmem, hne⟩
        · exact hr₀
        · exact hheld other hmem hosid
      · intro command hmem
        have hdel := ((Table.mem_deleteWhere _ _ command).mp hmem).2
        simpa using hdel

/-- A reconciliation that no other row rivals does not clash. -/
theorem reconcile_noClash
    {s s' : Store} {messageId : Nat} {env : Env} {e : StoreError}
    (hheld : HeldBy serverMessageId s messageId)
    (h : PrivchatSdk.outboxReconcileSent messageId serverMessageId env s =
      (.error e, s')) :
    e.onServerIdIndex = false := by
  cases outboxReconcileSent_outcome h with
  | failed e he =>
      by_contra hcon
      have hnone := he (by simpa using hcon)
      apply (Table.update_eq_none_iff _ _ _ _).mp hnone
      refine Table.keysUnique_updatedRow _ _ _ ?_
      intro a _ _ b hb hbne k hka hkb
      simp only [mem_keys_message, MessageRow.reconcile,
        Option.some.injEq] at hka hkb
      rw [← hka.1] at hkb
      exact hbne (hheld b hb hkb.1)

/-- An acknowledgement keeps the invariant. -/
theorem Good.ack
    {st : SelfSend} (h : Good serverMessageId st) {messageId : Nat}
    (hm : messageId ∈ st.localRows) {messageSeq : Int} {env : Env} {s' : Store}
    {res : Except StoreError PUnit}
    (hrun : PrivchatSdk.outboxAckSent messageId serverMessageId messageSeq env
      st.store = (res, s')) :
    Good serverMessageId
      { st with
        store := s'
        settled := st.settled || isOk res
        clash := st.clash || isClash res } := by
  cases res with
  | error e =>
      cases outboxAckSent_outcome hrun with
      | failed _ he =>
          have hkeep := h.of_store st.store he (fun _ _ _ hset => hset)
          simpa [isClash, isOk] using hkeep
  | ok u =>
      exact h.of_settled hm (settled_of_ack hrun)

/-- A reconciliation of a row that holds the server id keeps the invariant. -/
theorem Good.reconcile
    {st : SelfSend} (h : Good serverMessageId st) (hpos : 0 < serverMessageId)
    {messageId : Nat} (hm : messageId ∈ st.localRows)
    (hawait : awaitServerMessageId st.store messageId = some serverMessageId)
    {env : Env} {s' : Store} {res : Except StoreError PUnit}
    (hrun : PrivchatSdk.outboxReconcileSent messageId serverMessageId env
      st.store = (res, s')) :
    Good serverMessageId
      { st with
        store := s'
        settled := st.settled || isOk res
        clash := st.clash || isClash res } := by
  obtain ⟨hrow, hheld⟩ := heldBy_of_awaited hpos hawait
  cases res with
  | error e =>
      have he := reconcile_noClash hheld hrun
      cases outboxReconcileSent_outcome hrun with
      | failed _ _ =>
          have hkeep := h.of_store st.store he (fun _ _ _ hset => hset)
          simpa [isClash, isOk] using hkeep
  | ok u =>
      exact h.of_settled hm (settled_of_reconcile hrow hheld hrun)

/-- A copy without a local id finds no row by it. -/
theorem findsOne_replay (s : Store) (input : UpsertRemoteMessageInput) :
    FindsOne uid s (replayInput uid serverMessageId input) := by
  intro row _ _ other hother
  have hpos := (Store.mem_of_byInputLocalId hother).2.2.2.2
  simp [replayInput] at hpos

/-- Every guarded event keeps the invariant. -/
theorem Good.step
    (hpos : 0 < serverMessageId) (st : SelfSend) (event : Env × SelfSendEvent)
    (h : Good serverMessageId st)
    (hok : ok uid localMessageId serverMessageId st event) :
    Good serverMessageId
      (step uid localMessageId serverMessageId st event) := by
  obtain ⟨env, event⟩ := event
  cases event with
  | createLocalMessageQueued input commandType payload routeKey =>
      exact h.create rfl
  | outboxAckSent messageId messageSeq =>
      simp only [SelfSend.step]
      split
      · rename_i hm
        exact h.ack hm rfl
      · exact h
  | echo input =>
      exact h.upsert rfl rfl hok
  | replay input =>
      exact h.upsert rfl rfl (fun _ => findsOne_replay st.store input)
  | outboxReconcileSent messageId =>
      simp only [SelfSend.step]
      split
      · rename_i hm
        exact h.reconcile hpos hm.1 hm.2 rfl
      · exact h

theorem Good.start (serverMessageId : Nat) (s : Store) :
    Good serverMessageId (start s) where
  noClash := rfl
  settled := by simp [SelfSend.start]

end Invariant

/--
In every run whose events are guarded, whatever the store held before, no
operation clashes, and once the message was acknowledged or reconciled a created
row is the one row with the server id, sent and without a command.
-/
theorem selfSend_settles
    (uid localMessageId serverMessageId : Nat) (hpos : 0 < serverMessageId)
    (s : Store) (events : List (Env × SelfSendEvent))
    (hok : EventRun.Guarded (step uid localMessageId serverMessageId)
      (ok uid localMessageId serverMessageId) (start s) events) :
    Good serverMessageId
      (EventRun.run (step uid localMessageId serverMessageId) (start s)
        events) :=
  EventRun.Guarded.invariant (Good serverMessageId) (Good.step hpos)
    (Good.start serverMessageId s) hok

section Counterexample

/-- Message 7 of user 1 is created, acknowledged as 900 and brought by history. -/
def acknowledgedAndReplayed : List (Env × SelfSendEvent) :=
  [(Env.calm 1000, .createLocalMessageQueued (.text 10 1 "hi") "message" [] none),
    (Env.calm 2000, .outboxAckSent 1 5),
    (Env.calm 3000, .replay (.text 900 0 10 1 5 "hi"))]

/-- The echo and a late reconciliation leave the message settled. -/
theorem selfSend_settles_after_ack :
    Good 900
      (EventRun.run (step 1 7 900) (start Store.empty)
        (acknowledgedAndReplayed ++
          [(Env.calm 4000, .echo (.text 900 7 10 1 5 "hi")),
            (Env.calm 5000, .outboxReconcileSent 1)])) := by
  refine selfSend_settles 1 7 900 (by decide) Store.empty _
    ⟨trivial, trivial, trivial, ?_, trivial, trivial⟩
  intro _ row _ _ other hother
  cases hother

/--
The copy from history took the local id from the settled row, so that a second
creation with this id is not refused; the echo merges the settled row into the
new one, whose command stays in the outbox.
-/
theorem selfSend_created_again :
    ¬ Good 900
      (EventRun.run (step 1 7 900) (start Store.empty)
        (acknowledgedAndReplayed ++
          [(Env.calm 4000,
              .createLocalMessageQueued (.text 10 1 "hi") "message" [] none),
            (Env.calm 5000, .echo (.text 900 7 10 1 5 "hi"))])) := by
  intro hgood
  obtain ⟨messageId, hm, hset⟩ := hgood.settled (by decide)
  have hrow : messageId = 1 ∨ messageId = 2 := by
    have hlocal : messageId ∈ [1, 2] := hm
    simpa using hlocal
  rcases hrow with rfl | rfl
  · obtain ⟨row, hrow, -⟩ := hset.sent
    cases hrow
  · exact absurd hset.noCommand (by decide)

end Counterexample

end SelfSend

end PrivchatSdk
