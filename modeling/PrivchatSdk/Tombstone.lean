import PrivchatSdk.Store.Change
import PrivchatSdk.Store.Outbox

/-!
# Revocation as a one-way tombstone

A revoke is split between two tables: the content of the row is replaced, and
the flag stands in `message_extra`.  The module follows one server message
through any sequence of the operations that write either side, and records what
the row showed before its revocation.

`Watch.KeepsBuried` is the condition on an event under which a revoked message
stays revoked and hidden; `tombstone_holds` lifts it to runs.  A replay of the
original message is outside of it (`replay_after_revoke_shows_content`).
-/

namespace PrivchatSdk

open StatementExec RelTable

section Buried

/-- Type and content of a row: what the readers show. -/
def MessageRow.visible (r : MessageRow) : Int × String :=
  (r.messageType, r.content)

/-- What a revoke writes. -/
def placeholder : Int × String :=
  (0, revokedContent)

/--
The row of the server message, if it is stored, is flagged and shows nothing
that has to stay hidden.
-/
def Buried
    (serverMessageId : Nat) (hidden : List (Int × String)) (s : Store) : Prop :=
  ∀ row ∈ s.message.rows, row.serverMessageId = some serverMessageId →
    s.revoke row.id = true ∧ row.visible ∉ hidden

/-- The message row `m` is not the row of the server message. -/
def Elsewhere (serverMessageId m : Nat) (s : Store) : Prop :=
  ∀ row ∈ s.message.rows, row.serverMessageId = some serverMessageId →
    row.id ≠ m

variable {s : Store} {messageId channelId : Nat} {channelType : Int}
  {ins upd : ExtraWrite}

/-- The flag after a write that sets it. -/
theorem revoke_write_self
    {b : Bool} (hins : ∀ r, (ins.apply r).revoke = b)
    (hupd : ∀ r, (upd.apply r).revoke = b) :
    Store.revoke { s with
      messageExtra := upsertedExtra s.messageExtra messageId channelId
        channelType ins upd } messageId = b := by
  unfold Store.revoke
  rw [lookup_upsertedExtra_self]
  cases s.messageExtra.lookup messageId with
  | none =>
      simp [hins]
  | some r =>
      simp [hupd]

theorem revoke_write_of_ne {n : Nat} (hne : n ≠ messageId) :
    Store.revoke { s with
      messageExtra := upsertedExtra s.messageExtra messageId channelId
        channelType ins upd } n = s.revoke n := by
  unfold Store.revoke
  rw [lookup_upsertedExtra_of_ne _ _ _ _ _ _ hne]

/-- A write that sets the flag clears none. -/
theorem revoke_write_mono
    (hins : ∀ r, (ins.apply r).revoke = true)
    (hupd : ∀ r, (upd.apply r).revoke = true) {n : Nat}
    (h : s.revoke n = true) :
    Store.revoke { s with
      messageExtra := upsertedExtra s.messageExtra messageId channelId
        channelType ins upd } n = true := by
  by_cases hn : n = messageId
  · subst hn
    exact revoke_write_self hins hupd
  · rw [revoke_write_of_ne hn]
    exact h

variable {S : Nat} {hidden : List (Int × String)}

/-- Fewer things to hide. -/
theorem Buried.mono
    {hidden' : List (Int × String)} (h : Buried S hidden s)
    (hsub : ∀ p ∈ hidden', p ∈ hidden) :
    Buried S hidden' s := by
  intro row hrow hsid
  obtain ⟨hflag, hvisible⟩ := h row hrow hsid
  exact ⟨hflag, fun hin => hvisible (hsub _ hin)⟩

/-- Messages that keep their identity, and flags that stay. -/
theorem Buried.of_modify
    (h : Buried S hidden s) {p : MessageRow → Bool}
    {f : MessageRow → MessageRow} {hid hkeys}
    (hsid : ∀ r, (f r).serverMessageId = r.serverMessageId)
    (hf : ∀ r ∈ s.message.rows, p r = true → r.serverMessageId = some S →
      (f r).visible ∉ hidden) :
    Buried S hidden { s with message := s.message.modify p f hid hkeys } := by
  intro row hrow hrowS
  obtain ⟨r, hr, rfl⟩ := (Table.mem_updatedRows _ _ _ _).mp hrow
  show s.revoke _ = true ∧ _
  by_cases hp : p r = true
  · rw [if_pos hp] at hrowS ⊢
    rw [hsid] at hrowS
    have hfid : (f r).id = r.id := hid r
    rw [hfid]
    exact ⟨(h r hr hrowS).1, hf r hr hp hrowS⟩
  · rw [if_neg hp] at hrowS ⊢
    exact h r hr hrowS

/-- A tombstone hides everything but itself. -/
theorem Buried.of_tombstone
    (h : Buried S hidden s) (hhidden : placeholder ∉ hidden)
    {p : MessageRow → Bool} {now : Int} {hid hkeys} :
    Buried S hidden { s with
      message := s.message.modify p (MessageRow.tombstone now) hid hkeys } :=
  h.of_modify (fun _ => rfl) (fun _ _ _ _ => hhidden)

end Buried

section Operations

variable {S : Nat} {hidden : List (Int × String)}

/-- The row that an acknowledgement of the message writes stays buried. -/
def KeepsBuriedRow
    (hidden : List (Int × String)) (s : Store) (messageId : Nat) : Prop :=
  ∀ row, s.message.byRowid messageId = some row →
    s.revoke messageId = true ∧ row.visible ∉ hidden

theorem Buried.acked
    {messageId serverMessageId : Nat} {messageSeq : Int} {o : Table OutboxRow}
    {env : Env} {s s' : Store} {res : Except StoreError PUnit}
    (h : Buried S hidden s)
    (hout : AckOutcome messageId serverMessageId messageSeq o env s res s')
    (hok : serverMessageId = S → KeepsBuriedRow hidden s messageId) :
    Buried S hidden s' := by
  cases hout with
  | failed e he =>
      exact h
  | acked row t hrow ht =>
      intro r hr hsid
      show s.revoke r.id = true ∧ _
      rcases mem_of_update ht hr with ⟨r₀, hr₀, hid₀, rfl⟩ | ⟨hr₀, -⟩
      · have hr₀' := ((Table.mem_deleteWhere _ _ r₀).mp hr₀).1
        have hfound : s.message.byRowid messageId = some r₀ :=
          (s.message.byRowid_eq_some_iff _ _).mpr ⟨hr₀', hid₀⟩
        have hS : serverMessageId = S := by
          simpa [MessageRow.acknowledge] using hsid
        obtain ⟨hflag, hvisible⟩ := hok hS r₀ hfound
        rw [← hid₀] at hflag
        exact ⟨hflag, hvisible⟩
      · exact h r ((Table.mem_deleteWhere _ _ r).mp hr₀).1 hsid

theorem Buried.reconciled
    {messageId serverMessageId : Nat} {env : Env} {s s' : Store}
    {res : Except StoreError PUnit}
    (h : Buried S hidden s)
    (hout : ReconcileOutcome messageId serverMessageId env s res s')
    (hok : serverMessageId = S → KeepsBuriedRow hidden s messageId) :
    Buried S hidden s' := by
  cases hout with
  | failed e he =>
      exact h
  | reconciled t ht =>
      intro r hr hsid
      show s.revoke r.id = true ∧ _
      rcases mem_of_update ht hr with ⟨r₀, hr₀, hid₀, rfl⟩ | ⟨hr₀, -⟩
      · have hfound : s.message.byRowid messageId = some r₀ :=
          (s.message.byRowid_eq_some_iff _ _).mpr ⟨hr₀, hid₀⟩
        have hS : serverMessageId = S := by
          simpa [MessageRow.reconcile] using hsid
        obtain ⟨hflag, hvisible⟩ := hok hS r₀ hfound
        rw [← hid₀] at hflag
        exact ⟨hflag, hvisible⟩
      · exact h r hr₀ hsid

/-- Statement by statement: what is buried stays so. -/
def KeepsBuried (S : Nat) (hidden : List (Int × String)) (s s' : Store) : Prop :=
  Buried S hidden s → Buried S hidden s'

/-- The same, for an operation on another message row. -/
def KeepsElsewhere
    (S : Nat) (hidden : List (Int × String)) (m : Nat) (s s' : Store) : Prop :=
  Buried S hidden s ∧ Elsewhere S m s → Buried S hidden s' ∧ Elsewhere S m s'

theorem keepsBuried_refl (s : Store) : KeepsBuried S hidden s s :=
  id

theorem keepsBuried_trans
    (s t u : Store) (h : KeepsBuried S hidden s t)
    (h' : KeepsBuried S hidden t u) : KeepsBuried S hidden s u :=
  h' ∘ h

theorem keepsElsewhere_refl {m : Nat} (s : Store) :
    KeepsElsewhere S hidden m s s :=
  id

theorem keepsElsewhere_trans
    {m : Nat} (s t u : Store) (h : KeepsElsewhere S hidden m s t)
    (h' : KeepsElsewhere S hidden m t u) : KeepsElsewhere S hidden m s u :=
  h' ∘ h

/-- Changing the content of another message. -/
theorem keepsElsewhere_modify
    {m : Nat} (f : MessageRow → MessageRow) (hid hkeys)
    (hsid : ∀ r, (f r).serverMessageId = r.serverMessageId) (s : Store) :
    KeepsElsewhere S hidden m s { s with
      message := s.message.modify (fun r => r.id == m) f hid hkeys } := by
  rintro ⟨hburied, helse⟩
  refine ⟨hburied.of_modify hsid (fun r hr hp hrS => ?_), ?_⟩
  · exact absurd (by simpa using hp) (helse r hr hrS)
  · intro row hrow hrowS
    obtain ⟨r, hr, rfl⟩ := (Table.mem_updatedRows _ _ _ _).mp hrow
    split
    · rename_i hp
      rw [if_pos hp, hsid] at hrowS
      exact absurd (by simpa using hp) (helse r hr hrowS)
    · rename_i hp
      rw [if_neg hp] at hrowS
      exact helse r hr hrowS

/-- Writing the extra row of another message. -/
theorem keepsElsewhere_extra
    {m channelId : Nat} {channelType : Int} {ins upd : ExtraWrite} (s : Store) :
    KeepsElsewhere S hidden m s { s with
      messageExtra := upsertedExtra s.messageExtra m channelId channelType
        ins upd } := by
  rintro ⟨hburied, helse⟩
  refine ⟨fun row hrow hrowS => ?_, helse⟩
  rw [revoke_write_of_ne (helse row hrow hrowS)]
  exact hburied row hrow hrowS

theorem keepsElsewhere_modifyExisting
    {m : Nat} (context notFound : String) (f : MessageRow → MessageRow)
    (hid hkeys) (hsid : ∀ r, (f r).serverMessageId = r.serverMessageId) :
    (modifyExisting context notFound m f hid hkeys).Relates
      (KeepsElsewhere S hidden m) := by
  intro env s
  cases hrun : modifyExisting context notFound m f hid hkeys env s with
  | mk res s' =>
  show KeepsElsewhere S hidden m s (modifyExisting _ _ _ _ _ _ env s).2
  rw [hrun]
  rcases modifyExisting_cases hrun with ⟨e, -, rfl⟩ | ⟨-, -, rfl⟩
  · exact keepsElsewhere_refl _
  · exact keepsElsewhere_modify f hid hkeys hsid s

theorem keepsElsewhere_editMessage
    (m : Nat) (content : String) (editedAt : Int) :
    (editMessage m content editedAt).Relates (KeepsElsewhere S hidden m) := by
  refine Exec.Relates.bind keepsElsewhere_trans
    (relates_nowMs keepsElsewhere_refl) (fun now => ?_)
  refine Exec.Relates.bind keepsElsewhere_trans
    (keepsElsewhere_modifyExisting _ _ _ _ _ (fun _ => rfl)) (fun _ => ?_)
  refine Exec.Relates.bind keepsElsewhere_trans
    (relates_queryRow keepsElsewhere_refl _ _) (fun row => ?_)
  exact relates_exec keepsElsewhere_refl _ (fun s => keepsElsewhere_extra s)

/-- A revoke item for another message, whatever it says. -/
theorem keepsElsewhere_setMessageRevoke
    (m : Nat) (revoked : Bool) (revoker : Option Nat) :
    (setMessageRevoke m revoked revoker).Relates
      (KeepsElsewhere S hidden m) := by
  refine Exec.Relates.bind keepsElsewhere_trans
    (relates_query keepsElsewhere_refl _ _) (fun found => ?_)
  cases found with
  | none =>
      exact Exec.relates_pure keepsElsewhere_refl _
  | some row =>
      refine Exec.Relates.bind keepsElsewhere_trans
        (relates_nowMs keepsElsewhere_refl) (fun now => ?_)
      refine Exec.Relates.bind keepsElsewhere_trans
        (relates_exec keepsElsewhere_refl _ (fun s => keepsElsewhere_extra s))
        (fun _ => ?_)
      exact Exec.Relates.ite
        (keepsElsewhere_modifyExisting _ _ _ _ _ (fun _ => rfl))
        (Exec.relates_pure keepsElsewhere_refl _)

/-- Setting the flag of any message buries no less. -/
theorem keepsBuried_flag
    {m channelId : Nat} {channelType : Int} {ins upd : ExtraWrite}
    (hins : ∀ r, (ins.apply r).revoke = true)
    (hupd : ∀ r, (upd.apply r).revoke = true) (s : Store) :
    KeepsBuried S hidden s { s with
      messageExtra := upsertedExtra s.messageExtra m channelId channelType
        ins upd } := by
  intro h row hrow hrowS
  exact ⟨revoke_write_mono hins hupd (h row hrow hrowS).1,
    (h row hrow hrowS).2⟩

/-- A revoke of any message buries no less. -/
theorem keepsBuried_setMessageRevoke
    (hhidden : placeholder ∉ hidden) (m : Nat) (revoker : Option Nat) :
    (setMessageRevoke m true revoker).Relates (KeepsBuried S hidden) := by
  refine Exec.Relates.bind keepsBuried_trans
    (relates_query keepsBuried_refl _ _) (fun found => ?_)
  cases found with
  | none =>
      exact Exec.relates_pure keepsBuried_refl _
  | some row =>
      refine Exec.Relates.bind keepsBuried_trans
        (relates_nowMs keepsBuried_refl) (fun now => ?_)
      refine Exec.Relates.bind keepsBuried_trans
        (relates_exec keepsBuried_refl _
          (fun s => keepsBuried_flag (fun _ => rfl) (fun _ => rfl) s))
        (fun _ => ?_)
      refine Exec.Relates.ite ?_ (Exec.relates_pure keepsBuried_refl _)
      refine Exec.Relates.bind keepsBuried_trans ?_ (fun updated =>
        Exec.Relates.ite (Exec.relates_fail keepsBuried_refl _)
          (Exec.relates_pure keepsBuried_refl _))
      refine relates_stmt keepsBuried_refl (fun s n s' h => ?_)
      cases h
      exact fun hs => hs.of_tombstone hhidden

theorem keepsBuried_setMessageRevokeByServerMessageId
    (hhidden : placeholder ∉ hidden) (serverMessageId : Nat) (revoked : Bool)
    (revoker : Option Nat) :
    (setMessageRevokeByServerMessageId serverMessageId revoked
      revoker).Relates (KeepsBuried S hidden) := by
  cases revoked with
  | false =>
      -- "not revoked" updates no row, and without a row nothing is written
      intro env s
      exact id
  | true =>
      refine Exec.Relates.bind keepsBuried_trans
        (relates_nowMs keepsBuried_refl) (fun now => ?_)
      refine Exec.Relates.bind keepsBuried_trans ?_ (fun updated => ?_)
      · show (modifyMessage _ _ _ _ _).Relates (KeepsBuried S hidden)
        refine relates_stmt keepsBuried_refl (fun s n s' h => ?_)
        cases h
        exact fun hs => hs.of_tombstone hhidden
      · refine Exec.Relates.ite (Exec.relates_pure keepsBuried_refl _) ?_
        refine Exec.Relates.bind keepsBuried_trans
          (relates_queryRow keepsBuried_refl _ _) (fun row => ?_)
        refine Exec.Relates.bind keepsBuried_trans
          (relates_exec keepsBuried_refl _
            (fun s => keepsBuried_flag (fun _ => rfl) (fun _ => rfl) s))
          (fun _ => ?_)
        exact relates_query keepsBuried_refl _ _

end Operations

section Upserts

variable {S : Nat} {hidden : List (Int × String)} {currentUid : Option Nat}
  {input : UpsertRemoteMessageInput} {s : Store}

theorem revoke_takeRevoke_self
    {messageId : Nat} {now : Int} (h : input.revoked = true) :
    (s.takeRevoke messageId input now).revoke messageId = true := by
  unfold Store.takeRevoke
  rw [if_pos h]
  exact revoke_write_self (fun _ => rfl) (fun _ => rfl)

theorem revoke_takeRevoke_mono
    {messageId n : Nat} {now : Int} (h : s.revoke n = true) :
    (s.takeRevoke messageId input now).revoke n = true := by
  unfold Store.takeRevoke
  split
  · exact revoke_write_mono (fun _ => rfl) (fun _ => rfl) h
  · exact h

theorem revoke_takeRevoke_of_ne
    {messageId n : Nat} {now : Int} (hne : n ≠ messageId) :
    (s.takeRevoke messageId input now).revoke n = s.revoke n := by
  unfold Store.takeRevoke
  split
  · exact revoke_write_of_ne hne
  · rfl

/-- The statement that writes the revoke flag of an upsert goes through. -/
def Flags (env : Env) (input : UpsertRemoteMessageInput) : Prop :=
  input.revoked = true ∧ env.fault "mark remote message revoked" = false

/--
An upsert of a revoked message keeps it buried: what it writes shows nothing
hidden, and the row it writes to is flagged or gets flagged.
-/
structure UpsertKeepsBuried
    (hidden : List (Int × String)) (currentUid : Option Nat)
    (env : Env) (s : Store) (input : UpsertRemoteMessageInput) : Prop where
  written : ∀ base row, UpsertTarget currentUid input s base row →
    (input.messageType, input.content) ∉ hidden ∧
      (s.revoke row.id = true ∨ Flags env input)
  inserted : s.byServerId input.serverMessageId = none →
    s.byInputLocalId currentUid input = none →
      (input.messageType, input.content) ∉ hidden ∧ Flags env input

/-- The rows of the message after the update of an upsert. -/
theorem rows_of_upsert_update
    {base t : Table MessageRow} {row r : MessageRow} {now : Int}
    (htarget : UpsertTarget currentUid input s base row)
    (ht : base.update (fun r => Record.rowid r == row.id)
      (input.overwrite now) (fun _ => rfl) = some t)
    (hr : r ∈ t.rows) :
    (r.id = row.id ∧ r.serverMessageId = some input.serverMessageId ∧
        r.visible = (input.messageType, input.content)) ∨
      (r.id ≠ row.id ∧ r ∈ s.message.rows) := by
  rcases mem_of_update ht hr with ⟨r₀, hr₀, hid₀, rfl⟩ | ⟨hr₀, hne⟩
  · exact Or.inl ⟨hid₀, rfl, rfl⟩
  · refine Or.inr ⟨hne, ?_⟩
    have hfound := htarget.byRowid_base
      ((base.byRowid_eq_some_iff r.id r).mpr ⟨hr₀, rfl⟩)
    exact ((s.message.byRowid_eq_some_iff _ _).mp hfound).1

theorem rows_of_upsert_insert
    {t : Table MessageRow} {r : MessageRow} {now : Int} {n : Nat}
    (ht : s.message.insert (input.toRow now) (fun _ => rfl) = some (t, n))
    (hr : r ∈ t.rows) :
    (r.id = s.message.nextRowid ∧
        r.serverMessageId = some input.serverMessageId ∧
        r.visible = (input.messageType, input.content)) ∨
      (r.id ≠ s.message.nextRowid ∧ r ∈ s.message.rows) := by
  rw [(Table.rows_of_insert ht).2.1, List.mem_append,
    List.mem_singleton] at hr
  rcases hr with hr | rfl
  · have hlt := s.message.rowid_lt r hr
    exact Or.inr ⟨Nat.ne_of_lt hlt, hr⟩
  · exact Or.inl ⟨rfl, rfl, rfl⟩

/-- The upserted row written over, with its flag. -/
theorem Buried.written
    (h : Buried S hidden s) {base t : Table MessageRow} {row : MessageRow}
    {now : Int} {flags : Store} (hmsg : flags.message = t)
    (htarget : UpsertTarget currentUid input s base row)
    (ht : base.update (fun r => Record.rowid r == row.id)
      (input.overwrite now) (fun _ => rfl) = some t)
    (hothers : ∀ n, n ≠ row.id → flags.revoke n = s.revoke n)
    (hok : input.serverMessageId = S →
      flags.revoke row.id = true ∧
        (input.messageType, input.content) ∉ hidden) :
    Buried S hidden flags := by
  intro r hr hrS
  rw [hmsg] at hr
  rcases rows_of_upsert_update htarget ht hr with
    ⟨hid, hsid, hvisible⟩ | ⟨hne, hr⟩
  · rw [hsid, Option.some.injEq] at hrS
    rw [hid, hvisible]
    exact hok hrS
  · rw [hothers r.id hne]
    exact h r hr hrS

theorem Buried.insertedRow
    (h : Buried S hidden s) {t : Table MessageRow} {now : Int} {n : Nat}
    {flags : Store} (hmsg : flags.message = t)
    (ht : s.message.insert (input.toRow now) (fun _ => rfl) = some (t, n))
    (hothers : ∀ n, n ≠ s.message.nextRowid → flags.revoke n = s.revoke n)
    (hok : input.serverMessageId = S →
      flags.revoke s.message.nextRowid = true ∧
        (input.messageType, input.content) ∉ hidden) :
    Buried S hidden flags := by
  intro r hr hrS
  rw [hmsg] at hr
  rcases rows_of_upsert_insert ht hr with ⟨hid, hsid, hvisible⟩ | ⟨hne, hr⟩
  · rw [hsid, Option.some.injEq] at hrS
    rw [hid, hvisible]
    exact hok hrS
  · rw [hothers r.id hne]
    exact h r hr hrS

/-- An upsert of a message whose revocation is known. -/
theorem Buried.upserted
    (h : Buried S hidden s) {env : Env} {s' : Store}
    {res : Except StoreError UpsertRemoteMessageResult}
    (hout : UpsertOutcome currentUid input env s res s')
    (hok : input.serverMessageId = S →
      UpsertKeepsBuried hidden currentUid env s input) :
    Buried S hidden s' := by
  cases hout with
  | failed e he => exact h
  | stale row hpos hrow hstale => exact h
  | dropped e base row he hpos htarget =>
      intro r hr hrS
      have hfound := htarget.byRowid_base
        ((base.byRowid_eq_some_iff r.id r).mpr ⟨hr, rfl⟩)
      exact h r ((s.message.byRowid_eq_some_iff _ _).mp hfound).1 hrS
  | unflagged e base t row he hpos htarget ht hflag =>
      refine h.written rfl htarget ht (fun _ _ => rfl) (fun hS => ?_)
      obtain ⟨hvisible, hrow | ⟨-, hcalm⟩⟩ := (hok hS).written base row htarget
      · exact ⟨hrow, hvisible⟩
      · rw [hflag.2] at hcalm
        cases hcalm
  | written base t row hpos htarget ht =>
      refine h.written (Store.takeRevoke_message _ _ _ _) htarget ht
        (fun n hne => revoke_takeRevoke_of_ne hne) (fun hS => ?_)
      obtain ⟨hvisible, hrow | ⟨hrevoked, -⟩⟩ :=
        (hok hS).written base row htarget
      · exact ⟨revoke_takeRevoke_mono hrow, hvisible⟩
      · exact ⟨revoke_takeRevoke_self hrevoked, hvisible⟩
  | insertedUnflagged e t he hpos hnone hnoneLocal ht hflag =>
      refine h.insertedRow rfl ht (fun _ _ => rfl) (fun hS => ?_)
      have hcalm := ((hok hS).inserted hnone hnoneLocal).2.2
      rw [hflag.2] at hcalm
      cases hcalm
  | inserted t hpos hnone hnoneLocal ht =>
      refine h.insertedRow (Store.takeRevoke_message _ _ _ _) ht
        (fun n hne => revoke_takeRevoke_of_ne hne) (fun hS => ?_)
      obtain ⟨hvisible, hrevoked, -⟩ := (hok hS).inserted hnone hnoneLocal
      exact ⟨revoke_takeRevoke_self hrevoked, hvisible⟩

/-- The upsert is not older than the stored row of the message. -/
def NotOlder (s : Store) (input : UpsertRemoteMessageInput) : Prop :=
  ∀ row, s.byServerId input.serverMessageId = some row →
    input.stale row = false

/-- An upsert that says revoked, and is not older, buries the message. -/
theorem buried_of_revoked_upsert
    {env : Env} {s' : Store} {result : UpsertRemoteMessageResult}
    (hout : UpsertOutcome currentUid input env s (.ok result) s')
    (hrevoked : input.revoked = true) (hfresh : NotOlder s input)
    (hvisible : (input.messageType, input.content) ∉ hidden) :
    Buried input.serverMessageId hidden s' := by
  cases hout with
  | stale row hpos hrow hstale =>
      rcases hrow with hrow | ⟨hnone, -⟩
      · rw [hfresh row hrow] at hstale
        cases hstale
      · intro r hr hrS
        exact absurd hrS ((s.byServerId_eq_none_iff _).mp hnone r hr)
  | written base t row hpos htarget ht =>
      intro r hr hrS
      rw [Store.takeRevoke_message] at hr
      rcases mem_of_update ht hr with ⟨r₀, hr₀, hid₀, rfl⟩ | ⟨hr₀, hne⟩
      · refine ⟨?_, hvisible⟩
        have hid : (input.overwrite env.now r₀).id = row.id := hid₀
        rw [hid]
        exact revoke_takeRevoke_self hrevoked
      · exact absurd hrS ((htarget.mem hpos).2.2 r hr₀ hne)
  | inserted t hpos hnone hnoneLocal ht =>
      intro r hr hrS
      rw [Store.takeRevoke_message] at hr
      rcases rows_of_upsert_insert ht hr with ⟨hid, -, hvis⟩ | ⟨-, hold⟩
      · rw [hid, hvis]
        exact ⟨revoke_takeRevoke_self hrevoked, hvisible⟩
      · exact absurd hrS ((s.byServerId_eq_none_iff _).mp hnone r hold)

end Upserts

section Revokes

variable {S : Nat} {hidden : List (Int × String)} {s s' : Store} {env : Env}
  {revoker : Option Nat}

/-- A successful revoke of a stored message buries it. -/
theorem buried_of_setMessageRevoke
    (hpos : 0 < S) (hhidden : placeholder ∉ hidden) {messageId : Nat}
    {row : MessageRow} {u : PUnit}
    (h : setMessageRevoke messageId true revoker env s = (.ok u, s'))
    (hrow : s.message.byRowid messageId = some row)
    (hsid : row.serverMessageId = some S) :
    Buried S hidden s' := by
  obtain ⟨hmem, hid⟩ := (s.message.byRowid_eq_some_iff _ _).mp hrow
  have hid' : row.id = messageId := hid
  obtain ⟨found, s₁, hq, hrest⟩ := Exec.bind_ok.mp h
  obtain ⟨-, hfound, rfl⟩ := query_ok.mp hq
  rw [hrow] at hfound
  subst hfound
  dsimp only at hrest
  rw [nowMs_bind] at hrest
  obtain ⟨u', s₂, hflag, hrest⟩ := Exec.bind_ok.mp hrest
  obtain ⟨-, rfl⟩ := exec_ok.mp hflag
  rw [if_pos rfl] at hrest
  rcases modifyExisting_cases hrest with ⟨e, he, -⟩ | ⟨-, -, rfl⟩
  · cases he
  intro r hr hrS
  obtain ⟨r₀, hr₀, rfl⟩ := (Table.mem_updatedRows _ _ _ _).mp hr
  have hsid₀ : r₀.serverMessageId = some S := by
    split at hrS
    · exact hrS
    · exact hrS
  have heq : r₀ = row := by
    refine s.message.key_inj (k := S) hr₀ hmem ?_ ?_
    · simp [hsid₀, hpos]
    · simp [hsid, hpos]
  subst heq
  rw [if_pos (by simp [hid'])]
  refine ⟨?_, hhidden⟩
  show Store.revoke _ r₀.id = true
  rw [hid']
  exact revoke_write_self (fun _ => rfl) (fun _ => rfl)

/-- A successful revoke by server id buries the message. -/
theorem buried_of_setMessageRevokeByServerMessageId
    (hpos : 0 < S) (hhidden : placeholder ∉ hidden) {stored : StoredMessage}
    (h : setMessageRevokeByServerMessageId S true revoker env s =
      (.ok (some stored), s')) :
    Buried S hidden s' := by
  unfold setMessageRevokeByServerMessageId at h
  rw [nowMs_bind] at h
  obtain ⟨updated, s₁, hm, hrest⟩ := Exec.bind_ok.mp h
  obtain ⟨-, -, rfl⟩ := modifyMessage_ok.mp hm
  split at hrest
  · cases hrest
  obtain ⟨row, s₂, hq, hrest⟩ := Exec.bind_ok.mp hrest
  obtain ⟨-, hrow, rfl⟩ := queryRow_ok.mp hq
  obtain ⟨u, s₃, hflag, hrest⟩ := Exec.bind_ok.mp hrest
  obtain ⟨-, rfl⟩ := exec_ok.mp hflag
  obtain ⟨-, -, rfl⟩ := query_ok.mp hrest
  rw [Store.byServerId_eq_some_iff _ hpos] at hrow
  intro r hr hrS
  have heq : r = row := by
    refine Table.key_inj _ (k := S) hr hrow.1 ?_ ?_
    · simp [hrS, hpos]
    · simp [hrow.2, hpos]
  subst heq
  refine ⟨revoke_write_self (fun _ => rfl) (fun _ => rfl), ?_⟩
  obtain ⟨r₀, hr₀, heq⟩ := (Table.mem_updatedRows _ _ _ _).mp hrow.1
  split at heq
  · rw [← heq]
    exact hhidden
  · rename_i hne
    rw [← heq] at hrS
    simp [hrS] at hne

end Revokes

section System

/--
The store, whether a revoke of the message has been processed, and what may
not show again: everything its row showed before, and what edits write.
-/
structure Watch where
  store : Store
  revoked : Bool
  hidden : List (Int × String)

/-- What can happen to a message and its copies. -/
inductive MessageEvent where
  | upsert (currentUid : Option Nat) (input : UpsertRemoteMessageInput)
  | batchUpsert
      (currentUid : Option Nat) (inputs : List UpsertRemoteMessageInput)
  | ackSent (messageId serverMessageId : Nat) (messageSeq : Int)
  | markSent (messageId serverMessageId : Nat) (messageSeq : Int)
  | reconcileSent (messageId serverMessageId : Nat)
  | edit (messageId : Nat) (content : String) (editedAt : Int)
  /-- A `message_extra` item with a revoke field. -/
  | revokeItem (messageId : Nat) (revoked : Bool) (revoker : Option Nat)
  | revokePush (serverMessageId : Nat) (revoked : Bool) (revoker : Option Nat)

variable (S : Nat)

/-- What the row of the message shows, unless it is the placeholder already. -/
def shown (s : Store) : List (Int × String) :=
  ((s.byServerId S).map MessageRow.visible).toList.filter
    (fun p => p != placeholder)

/-- What an edit of the row of the message writes. -/
def shownByEdit (s : Store) (messageId : Nat) (content : String) :
    List (Int × String) :=
  (((s.byServerId S).filter (fun r => r.id == messageId)).map
    (fun r => (r.messageType, content))).toList.filter
      (fun p => p != placeholder)

/-- What has to stay hidden if a revoke comes now. -/
def Watch.hides (w : Watch) : List (Int × String) :=
  if w.revoked then w.hidden else shown S w.store ++ w.hidden

/-- The watch after an operation that left `s'`. -/
def Watch.after
    (w : Watch) (s' : Store) (processed : Bool) (edited : List (Int × String)) :
    Watch where
  store := s'
  revoked := w.revoked || processed
  hidden := edited ++ w.hides S

/-- One upsert; a successful one that says revoked has processed the revoke. -/
def Watch.upsert
    (currentUid : Option Nat) (env : Env) (w : Watch)
    (input : UpsertRemoteMessageInput) : Watch :=
  let (res, s') := upsertRemoteMessageWithResult currentUid input env w.store
  w.after S s' (res.isOk && input.revoked && input.serverMessageId == S) []

/-- A message row holds the server id. -/
def Store.isRowOf (s : Store) (messageId : Nat) : Bool :=
  (s.message.byRowid messageId).any (fun r => r.serverMessageId == some S)

/-- The result of a revoke by server id that found its message. -/
def foundStored : Except StoreError (Option StoredMessage) → Bool
  | .ok (some _) => true
  | _ => false

/-- Take one event. -/
def Watch.step (w : Watch) (event : Env × MessageEvent) : Watch :=
  match event with
  | (env, .upsert currentUid input) => w.upsert S currentUid env input
  | (env, .batchUpsert currentUid inputs) =>
      EventRun.run (Watch.upsert S currentUid env) w inputs
  | (env, .ackSent messageId serverMessageId messageSeq) =>
      w.after S
        ((outboxAckSent messageId serverMessageId messageSeq).after env w.store)
        false []
  | (env, .markSent messageId serverMessageId messageSeq) =>
      w.after S
        ((markMessageSent messageId serverMessageId messageSeq).after env
          w.store)
        false []
  | (env, .reconcileSent messageId serverMessageId) =>
      w.after S
        ((outboxReconcileSent messageId serverMessageId).after env w.store)
        false []
  | (env, .edit messageId content editedAt) =>
      w.after S ((editMessage messageId content editedAt).after env w.store)
        false (shownByEdit S w.store messageId content)
  | (env, .revokeItem messageId revoked revoker) =>
      let (res, s') := setMessageRevoke messageId revoked revoker env w.store
      w.after S s' (res.isOk && revoked && w.store.isRowOf S messageId) []
  | (env, .revokePush serverMessageId revoked revoker) =>
      let (res, s') :=
        setMessageRevokeByServerMessageId serverMessageId revoked revoker env
          w.store
      w.after S s' (foundStored res && revoked && serverMessageId == S) []

theorem Watch.upsert_store
    (currentUid : Option Nat) (env : Env) (w : Watch)
    (input : UpsertRemoteMessageInput) :
    (w.upsert S currentUid env input).store =
      w.store.afterUpsert currentUid env input := by
  rfl

/-- The items of a batch leave the store that the batch operation leaves. -/
theorem Watch.batch_store
    (w : Watch) (env : Env) (currentUid : Option Nat)
    (inputs : List UpsertRemoteMessageInput) :
    (w.step S (env, .batchUpsert currentUid inputs)).store =
      (batchUpsertRemoteMessages currentUid inputs).after env w.store := by
  rw [after_batchUpsert]
  show (EventRun.run (Watch.upsert S currentUid env) w inputs).store = _
  induction inputs generalizing w with
  | nil =>
      rfl
  | cons input inputs ih =>
      rw [EventRun.run_cons, EventRun.run_cons, ih, Watch.upsert_store]

/-- The condition on one upsert. -/
def Watch.KeepsBuriedUpsert
    (currentUid : Option Nat) (env : Env) (w : Watch)
    (input : UpsertRemoteMessageInput) : Prop :=
  input.serverMessageId = S →
    (w.revoked = true →
      UpsertKeepsBuried w.hidden currentUid env w.store input) ∧
    (w.revoked = false → input.revoked = true →
      NotOlder w.store input ∧
        (input.messageType, input.content) ∉ w.hides S)

/-- The condition under which an event keeps a revoked message buried. -/
def Watch.KeepsBuried (w : Watch) : Env × MessageEvent → Prop
  | (env, .upsert currentUid input) =>
      w.KeepsBuriedUpsert S currentUid env input
  | (env, .batchUpsert currentUid inputs) =>
      EventRun.Guarded (Watch.upsert S currentUid env)
        (Watch.KeepsBuriedUpsert S currentUid env) w inputs
  | (_, .ackSent messageId serverMessageId _) =>
      w.revoked = true → serverMessageId = S →
        KeepsBuriedRow w.hidden w.store messageId
  | (_, .markSent messageId serverMessageId _) =>
      w.revoked = true → serverMessageId = S →
        KeepsBuriedRow w.hidden w.store messageId
  | (_, .reconcileSent messageId serverMessageId) =>
      w.revoked = true → serverMessageId = S →
        KeepsBuriedRow w.hidden w.store messageId
  | (_, .edit messageId _ _) =>
      w.revoked = true → w.store.isRowOf S messageId = false
  | (_, .revokeItem messageId revoked _) =>
      w.revoked = true → revoked = false →
        w.store.isRowOf S messageId = false
  | (_, .revokePush _ _ _) => True

/-- Once revoked, buried; and the placeholder is never among the hidden. -/
structure Watch.Inv (w : Watch) : Prop where
  hidden : placeholder ∉ w.hidden
  buried : w.revoked = true → Buried S w.hidden w.store

end System

section Steps

variable {S : Nat} {w : Watch}

theorem placeholder_notMem_hides (h : w.Inv S) :
    placeholder ∉ w.hides S := by
  unfold Watch.hides
  split
  · exact h.hidden
  · simp [shown, h.hidden]

/-- An operation that keeps the buried message buried, or is the revoke. -/
theorem Watch.Inv.after
    (h : w.Inv S) {s' : Store} {processed : Bool} {edited : List (Int × String)}
    (hedited : placeholder ∉ edited)
    (hkept : w.revoked = true →
      edited = [] ∧ Buried S w.hidden s')
    (hrevoked : w.revoked = false → processed = true →
      edited = [] ∧ Buried S (w.hides S) s') :
    (w.after S s' processed edited).Inv S where
  hidden := by
    simp [Watch.after, hedited, placeholder_notMem_hides h]
  buried hrev := by
    show Buried S (edited ++ w.hides S) s'
    cases hw : w.revoked with
    | true =>
        obtain ⟨rfl, hburied⟩ := hkept hw
        simpa [Watch.hides, hw] using hburied
    | false =>
        have hprocessed : processed = true := by
          simpa [Watch.after, hw] using hrev
        obtain ⟨rfl, hburied⟩ := hrevoked hw hprocessed
        simpa using hburied

theorem Watch.Inv.upsert
    (h : w.Inv S) {currentUid : Option Nat} {env : Env}
    {input : UpsertRemoteMessageInput}
    (hok : w.KeepsBuriedUpsert S currentUid env input) :
    (w.upsert S currentUid env input).Inv S := by
  unfold Watch.upsert
  cases hrun : upsertRemoteMessageWithResult currentUid input env w.store with
  | mk res s' =>
  have hout := upsert_outcome hrun
  refine h.after (by simp) (fun hw => ⟨rfl, ?_⟩) (fun hw hprocessed => ⟨rfl, ?_⟩)
  · exact (h.buried hw).upserted hout (fun hS => (hok hS).1 hw)
  · simp only [Bool.and_eq_true, beq_iff_eq] at hprocessed
    obtain ⟨⟨hres, hrevoked⟩, hS⟩ := hprocessed
    obtain ⟨hfresh, hvisible⟩ := (hok hS).2 hw hrevoked
    cases res with
    | error e =>
        cases hres
    | ok result =>
        rw [← hS] at hvisible ⊢
        exact buried_of_revoked_upsert hout hrevoked hfresh hvisible

theorem row_of_isRowOf
    {s : Store} {messageId : Nat} (h : s.isRowOf S messageId = true) :
    ∃ row, s.message.byRowid messageId = some row ∧
      row.serverMessageId = some S := by
  unfold Store.isRowOf at h
  cases hrow : s.message.byRowid messageId with
  | none =>
      simp [hrow] at h
  | some row =>
      exact ⟨row, rfl, by simpa [hrow] using h⟩

/-- A message row that is not the row of the server message. -/
theorem elsewhere_of_isRowOf
    {s : Store} {messageId : Nat} (h : s.isRowOf S messageId = false) :
    Elsewhere S messageId s := by
  intro row hrow hsid hid
  have hfound : s.message.byRowid messageId = some row :=
    (s.message.byRowid_eq_some_iff _ _).mpr ⟨hrow, hid⟩
  simp [Store.isRowOf, hfound, hsid] at h

/-- An edit of another row writes nothing that the message shows. -/
theorem shownByEdit_of_elsewhere
    {s : Store} {messageId : Nat} (hpos : 0 < S)
    (h : s.isRowOf S messageId = false) (content : String) :
    shownByEdit S s messageId content = [] := by
  unfold shownByEdit
  cases hrow : s.byServerId S with
  | none =>
      rfl
  | some row =>
      obtain ⟨hmem, hsid⟩ := (s.byServerId_eq_some_iff hpos row).mp hrow
      have hne := elsewhere_of_isRowOf h row hmem hsid
      simp [Option.filter, hne]

theorem Watch.Inv.step
    (hpos : 0 < S) (h : w.Inv S) {event : Env × MessageEvent}
    (hok : w.KeepsBuried S event) :
    (w.step S event).Inv S := by
  obtain ⟨env, event⟩ := event
  cases event with
  | upsert currentUid input =>
      exact h.upsert hok
  | batchUpsert currentUid inputs =>
      exact EventRun.Guarded.invariant (Watch.Inv S)
        (fun _ _ hw hkeeps => hw.upsert hkeeps) h hok
  | ackSent messageId serverMessageId messageSeq =>
      refine h.after (by simp) (fun hw => ⟨rfl, ?_⟩) (by simp)
      exact (h.buried hw).acked (outboxAckSent_outcome rfl) (hok hw)
  | markSent messageId serverMessageId messageSeq =>
      refine h.after (by simp) (fun hw => ⟨rfl, ?_⟩) (by simp)
      exact (h.buried hw).acked (markMessageSent_outcome rfl) (hok hw)
  | reconcileSent messageId serverMessageId =>
      refine h.after (by simp) (fun hw => ⟨rfl, ?_⟩) (by simp)
      exact (h.buried hw).reconciled (outboxReconcileSent_outcome rfl) (hok hw)
  | edit messageId content editedAt =>
      refine h.after ?_ (fun hw => ⟨?_, ?_⟩) (by simp)
      · simp [shownByEdit]
      · exact shownByEdit_of_elsewhere hpos (hok hw) content
      · exact (keepsElsewhere_editMessage messageId content editedAt env w.store
          ⟨h.buried hw, elsewhere_of_isRowOf (hok hw)⟩).1
  | revokeItem messageId revoked revoker =>
      cases hrun : setMessageRevoke messageId revoked revoker env w.store with
      | mk res s' =>
      have hstep : w.step S (env, .revokeItem messageId revoked revoker) =
          w.after S s' (res.isOk && revoked && w.store.isRowOf S messageId)
            [] := by
        unfold Watch.step
        simp only [hrun]
      have hs' : (setMessageRevoke messageId revoked revoker).after env w.store =
          s' := by
        unfold Exec.after
        rw [hrun]
      rw [hstep]
      refine h.after (by simp) (fun hw => ⟨rfl, ?_⟩)
        (fun hw hprocessed => ⟨rfl, ?_⟩)
      · cases revoked with
        | true =>
            have hkeeps := keepsBuried_setMessageRevoke h.hidden messageId
              revoker env w.store (h.buried hw)
            rw [hs'] at hkeeps
            exact hkeeps
        | false =>
            have hkeeps := (keepsElsewhere_setMessageRevoke messageId false
              revoker env w.store
              ⟨h.buried hw, elsewhere_of_isRowOf (hok hw rfl)⟩).1
            rw [hs'] at hkeeps
            exact hkeeps
      · simp only [Bool.and_eq_true] at hprocessed
        obtain ⟨⟨hres, rfl⟩, hrowOf⟩ := hprocessed
        obtain ⟨row, hrow, hsid⟩ := row_of_isRowOf hrowOf
        cases res with
        | error e =>
            cases hres
        | ok u =>
            exact buried_of_setMessageRevoke hpos (placeholder_notMem_hides h)
              hrun hrow hsid
  | revokePush serverMessageId revoked revoker =>
      cases hrun : setMessageRevokeByServerMessageId serverMessageId revoked
          revoker env w.store with
      | mk res s' =>
      have hstep : w.step S (env, .revokePush serverMessageId revoked revoker) =
          w.after S s' (foundStored res && revoked && serverMessageId == S)
            [] := by
        unfold Watch.step
        simp only [hrun]
      have hs' : (setMessageRevokeByServerMessageId serverMessageId revoked
          revoker).after env w.store = s' := by
        unfold Exec.after
        rw [hrun]
      rw [hstep]
      refine h.after (by simp) (fun hw => ⟨rfl, ?_⟩)
        (fun hw hprocessed => ⟨rfl, ?_⟩)
      · have hkeeps := keepsBuried_setMessageRevokeByServerMessageId h.hidden
          serverMessageId revoked revoker env w.store (h.buried hw)
        rw [hs'] at hkeeps
        exact hkeeps
      · simp only [Bool.and_eq_true, beq_iff_eq] at hprocessed
        obtain ⟨⟨hfound, rfl⟩, rfl⟩ := hprocessed
        cases res with
        | error e =>
            cases hfound
        | ok found =>
            cases found with
            | none =>
                cases hfound
            | some stored =>
                exact buried_of_setMessageRevokeByServerMessageId hpos
                  (placeholder_notMem_hides h) hrun

end Steps

section Runs

/-- The watch of a message from some store on; `hidden` is what it ever showed. -/
def Watch.start (s : Store) (hidden : List (Int × String)) : Watch where
  store := s
  revoked := false
  hidden := hidden

/--
From any store, in every run whose events meet the condition: once a revoke of
the message has been processed, its row has the flag and shows nothing that it
showed before or that an edit wrote.
-/
theorem tombstone_holds
    {S : Nat} (hpos : 0 < S) (s : Store) (hidden : List (Int × String))
    (hhidden : placeholder ∉ hidden) {events : List (Env × MessageEvent)}
    (h : EventRun.Guarded (Watch.step S) (Watch.KeepsBuried S)
      (Watch.start s hidden) events) :
    let w := EventRun.run (Watch.step S) (Watch.start s hidden) events
    w.revoked = true → ∀ row, w.store.byServerId S = some row →
      w.store.revoke row.id = true ∧ row.visible ∉ w.hidden := by
  have hinv := EventRun.Guarded.invariant (Watch.Inv S)
    (fun _ _ hw hok => hw.step hpos hok)
    { hidden := hhidden, buried := by simp [Watch.start] } h
  intro w hrevoked row hrow
  obtain ⟨hmem, hsid⟩ := (w.store.byServerId_eq_some_iff hpos row).mp hrow
  exact hinv.buried hrevoked row hmem hsid

/-- A message is stored, revoked by a push, and backfilled as history keeps it. -/
def revokedThenBackfilled : List (Env × MessageEvent) :=
  [ (.calm 1000, .upsert (some 1) (.text 900 0 10 2 5 "secret")),
    (.calm 1001, .revokePush 900 true (some 2)),
    (.calm 1002, .batchUpsert (some 1)
      [{ UpsertRemoteMessageInput.text 900 0 10 2 5 "" with revoked := true }]),
    (.calm 1003, .ackSent 7 900 5) ]

/-- The backfill of a revoked message leaves it flagged and hidden. -/
theorem tombstone_holds_after_backfill :
    let w := EventRun.run (Watch.step 900) (Watch.start .empty [])
      revokedThenBackfilled
    w.revoked = true ∧ ∀ row, w.store.byServerId 900 = some row →
      w.store.revoke row.id = true ∧ row.visible ∉ w.hidden := by
  refine ⟨by decide, tombstone_holds (by decide) .empty [] (by simp) ?_
    (by decide)⟩
  refine ⟨?_, trivial, ⟨?_, trivial⟩, ?_, trivial⟩
  · intro _
    exact ⟨fun h => absurd h (by decide), fun _ h => absurd h (by decide)⟩
  · intro _
    refine ⟨fun _ => ⟨fun base row _ => ?_, fun _ _ => ?_⟩,
      fun h => absurd h (by decide)⟩
    · exact ⟨by decide, Or.inr ⟨rfl, rfl⟩⟩
    · exact ⟨by decide, rfl, rfl⟩
  · intro _ _ row hrow
    cases hrow

/--
A difference page replays the original message, which is not older than itself:
the row of the revoked message shows the original text again.
-/
theorem replay_after_revoke_shows_content :
    ¬ ∀ events : List (Env × MessageEvent),
      let w := EventRun.run (Watch.step 900) (Watch.start .empty []) events
      w.revoked = true → ∀ row, w.store.byServerId 900 = some row →
        w.store.revoke row.id = true ∧ row.visible ∉ w.hidden := by
  intro h
  refine (h
    [ (.calm 1000, .upsert (some 1) (.text 900 0 10 2 5 "secret")),
      (.calm 1001, .revokePush 900 true (some 2)),
      (.calm 1002, .upsert (some 1) (.text 900 0 10 2 5 "secret")) ]
    (by decide) _ rfl).2 ?_
  decide

/-- A revoke that is older than the stored row is reported as done and lost. -/
example :
    let w := EventRun.run (Watch.step 900) (Watch.start .empty [])
      [ (.calm 1000, .upsert (some 1) (.text 900 0 10 2 5 "secret")),
        (.calm 1001, .upsert (some 1)
          { UpsertRemoteMessageInput.text 900 0 10 2 4 "" with
            revoked := true }) ]
    w.revoked = true ∧ w.store.revoke 1 = false := by
  decide

end Runs

end PrivchatSdk
