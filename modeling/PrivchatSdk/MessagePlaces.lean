import PrivchatSdk.ChannelDifference

/-!
# Where the operations put messages

The largest `pts` of a channel is what a difference starts from.  For each operation
this module says at which `pts` of which channel a message can stand afterwards: where
a message stood before, or where the input of the operation puts one.  It also says
when the message of an input is stored.
-/

namespace PrivchatSdk

open StatementExec RelTable Receive

section Places

/-- The server id of a message, its `pts` and its channel. -/
structure MessagePlace where
  serverMessageId : Option Nat
  pts : Int
  channelId : Nat
  channelType : Int
  deriving DecidableEq, Repr

/-- Where a row stands. -/
def MessageRow.place (r : MessageRow) : MessagePlace where
  serverMessageId := r.serverMessageId
  pts := r.pts
  channelId := r.channelId
  channelType := r.channelType

/-- Where an upsert puts its message. -/
def UpsertRemoteMessageInput.place (input : UpsertRemoteMessageInput) :
    MessagePlace where
  serverMessageId := some input.serverMessageId
  pts := input.pts
  channelId := input.channelId
  channelType := input.channelType

end Places

namespace Difference

section PlacedFrom

/-- A message stands where one stood before, or at a new place. -/
def PlacedFrom (new : MessagePlace → Prop) (s s' : Store) : Prop :=
  ∀ r' ∈ s'.message.rows,
    (∃ r ∈ s.message.rows, r.place = r'.place) ∨ new r'.place

/-- No message stands at a new place. -/
abbrev Unmoved : Store → Store → Prop :=
  PlacedFrom (fun _ => False)

/-- The message is stored. -/
def Stored (serverMessageId : Nat) (s : Store) : Prop :=
  ∃ r ∈ s.message.rows, r.serverMessageId = some serverMessageId

variable {new : MessagePlace → Prop}

theorem PlacedFrom.refl (s : Store) : PlacedFrom new s s :=
  fun r' hr' => Or.inl ⟨r', hr', rfl⟩

theorem PlacedFrom.trans (s t u : Store)
    (h : PlacedFrom new s t) (h' : PlacedFrom new t u) : PlacedFrom new s u := by
  intro r' hr'
  rcases h' r' hr' with ⟨r, hr, hplace⟩ | hnew
  · rw [← hplace]
    exact h r hr
  · exact Or.inr hnew

theorem PlacedFrom.mono {new' : MessagePlace → Prop} {s s' : Store}
    (h : PlacedFrom new s s') (himp : ∀ place, new place → new' place) :
    PlacedFrom new' s s' :=
  fun r' hr' => (h r' hr').imp_right (himp _)

theorem unmoved_of_messages {s s' : Store} (h : s'.message = s.message) :
    Unmoved s s' := by
  intro r' hr'
  rw [h] at hr'
  exact Or.inl ⟨r', hr', rfl⟩

end PlacedFrom

section Contents

variable (codec : Codec)

theorem unmoved_modifyMessage
    (context : String) (p : MessageRow → Bool) (g : MessageRow → MessageRow)
    (hid hkeys) (hg : ∀ r, (g r).place = r.place) :
    (modifyMessage context p g hid hkeys).Relates Unmoved := by
  refine relates_stmt PlacedFrom.refl ?_
  intro s n s' h
  cases h
  intro r' hr'
  obtain ⟨r, hr, rfl⟩ := (Table.mem_updatedRows s.message p g r').mp hr'
  refine Or.inl ⟨r, hr, ?_⟩
  split
  · exact (hg r).symm
  · rfl

theorem unmoved_modifyExisting
    (context notFound : String) (messageId : Nat) (g : MessageRow → MessageRow)
    (hid hkeys) (hg : ∀ r, (g r).place = r.place) :
    (modifyExisting context notFound messageId g hid hkeys).Relates Unmoved := by
  refine Exec.Relates.bind PlacedFrom.trans
    (unmoved_modifyMessage context _ g hid hkeys hg) ?_
  intro updated
  exact Exec.Relates.ite (Exec.relates_fail PlacedFrom.refl _)
    (Exec.relates_pure PlacedFrom.refl _)

theorem unmoved_setMessageRevokeByServerMessageId
    (serverMessageId : Nat) (revoked : Bool) (revoker : Option Nat) :
    (setMessageRevokeByServerMessageId serverMessageId revoked revoker).Relates
      Unmoved := by
  refine Exec.Relates.bind PlacedFrom.trans (relates_nowMs PlacedFrom.refl)
    (fun now => ?_)
  refine Exec.Relates.bind PlacedFrom.trans ?_ (fun updated => ?_)
  · exact Exec.Relates.ite (unmoved_modifyMessage _ _ _ _ _ (fun _ => rfl))
      (Exec.relates_pure PlacedFrom.refl _)
  · refine Exec.Relates.ite (Exec.relates_pure PlacedFrom.refl _) ?_
    refine Exec.Relates.bind PlacedFrom.trans
      (relates_queryRow PlacedFrom.refl _ _) (fun row => ?_)
    refine Exec.Relates.bind PlacedFrom.trans
      (relates_exec PlacedFrom.refl _ (fun s => unmoved_of_messages rfl)) (fun _ => ?_)
    exact relates_query PlacedFrom.refl _ _

theorem unmoved_setMessageRevoke
    (messageId : Nat) (revoked : Bool) (revoker : Option Nat) :
    (setMessageRevoke messageId revoked revoker).Relates Unmoved := by
  refine Exec.Relates.bind PlacedFrom.trans
    (relates_query PlacedFrom.refl _ _) (fun found => ?_)
  cases found with
  | none =>
      exact Exec.relates_pure PlacedFrom.refl _
  | some row =>
      refine Exec.Relates.bind PlacedFrom.trans (relates_nowMs PlacedFrom.refl)
        (fun now => ?_)
      refine Exec.Relates.bind PlacedFrom.trans
        (relates_exec PlacedFrom.refl _ (fun s => unmoved_of_messages rfl))
        (fun _ => ?_)
      exact Exec.Relates.ite
        (unmoved_modifyExisting _ _ _ _ _ _ (fun _ => rfl))
        (Exec.relates_pure PlacedFrom.refl _)

theorem unmoved_editMessage (messageId : Nat) (content : String) (editedAt : Int) :
    (editMessage messageId content editedAt).Relates Unmoved := by
  refine Exec.Relates.bind PlacedFrom.trans (relates_nowMs PlacedFrom.refl)
    (fun now => ?_)
  refine Exec.Relates.bind PlacedFrom.trans
    (unmoved_modifyExisting _ _ _ _ _ _ (fun _ => rfl)) (fun _ => ?_)
  refine Exec.Relates.bind PlacedFrom.trans
    (relates_queryRow PlacedFrom.refl _ _) (fun row => ?_)
  exact relates_exec PlacedFrom.refl _ (fun s => unmoved_of_messages rfl)

theorem unmoved_setMessagePinned (messageId : Nat) (isPinned : Bool) :
    (setMessagePinned messageId isPinned).Relates Unmoved := by
  refine Exec.Relates.bind PlacedFrom.trans
    (relates_queryRow PlacedFrom.refl _ _) (fun row => ?_)
  refine Exec.Relates.bind PlacedFrom.trans (relates_nowMs PlacedFrom.refl)
    (fun now => ?_)
  exact relates_exec PlacedFrom.refl _ (fun s => unmoved_of_messages rfl)

theorem unmoved_resolveMessageId
    (channelId : Nat) (channelType : Int) (raw : Nat) :
    (resolveMessageId channelId channelType raw).Relates Unmoved := by
  refine Exec.Relates.ite ?_ (Exec.relates_pure PlacedFrom.refl _)
  exact Exec.Relates.bind PlacedFrom.trans (relates_query PlacedFrom.refl _ _)
    (fun found => Exec.relates_pure PlacedFrom.refl _)

theorem unmoved_applyExtraEdit (payload : Json) (messageId : Nat) :
    (codec.applyExtraEdit payload messageId).Relates Unmoved := by
  unfold Codec.applyExtraEdit
  split
  · exact Exec.Relates.bind PlacedFrom.trans (relates_nowMs PlacedFrom.refl)
      (fun now => unmoved_editMessage _ _ _)
  · exact Exec.relates_pure PlacedFrom.refl _

theorem unmoved_applyExtraItem
    (scope : Option String) (item : SyncEntityItem Json) :
    (codec.applyExtraItem scope item).Relates Unmoved := by
  refine Exec.Relates.ite (Exec.relates_pure PlacedFrom.refl _) ?_
  refine Exec.Relates.bind PlacedFrom.trans
    (unmoved_resolveMessageId _ _ _) (fun messageId => ?_)
  refine Exec.Relates.bind PlacedFrom.trans ?_ (fun _ => ?_)
  · exact Exec.Relates.ite (unmoved_setMessageRevoke _ _ _)
      (Exec.relates_pure PlacedFrom.refl _)
  refine Exec.Relates.bind PlacedFrom.trans
    (unmoved_applyExtraEdit codec _ _) (fun _ => ?_)
  exact Exec.Relates.ite (unmoved_setMessagePinned _ _)
    (Exec.relates_pure PlacedFrom.refl _)

theorem unmoved_applyReactionItem
    (scope : Option String) (item : SyncEntityItem Json) :
    (codec.applyReactionItem scope item).Relates Unmoved := by
  refine Exec.Relates.bind PlacedFrom.trans ?_ (fun messageId => ?_)
  · exact Exec.Relates.ite (unmoved_resolveMessageId _ _ _)
      (Exec.relates_pure PlacedFrom.refl _)
  refine Exec.Relates.ite (Exec.relates_pure PlacedFrom.refl _) ?_
  refine Exec.Relates.bind PlacedFrom.trans (relates_nowMs PlacedFrom.refl)
    (fun now => ?_)
  exact relates_exec PlacedFrom.refl _ (fun s => unmoved_of_messages rfl)

end Contents

section Messages

variable {currentUid : Option Nat} {input : UpsertRemoteMessageInput}

/-- An upsert puts its message where the input says, also if it fails half way. -/
theorem placedFrom_upsert {env : Env} {s s' : Store}
    {res : Except StoreError UpsertRemoteMessageResult}
    (h : upsertRemoteMessageWithResult currentUid input env s = (res, s')) :
    PlacedFrom (fun place => place = input.place) s s' := by
  intro r' hr'
  have hfound : s'.message.byRowid r'.id = some r' :=
    (s'.message.byRowid_eq_some_iff _ _).mpr ⟨hr', rfl⟩
  rcases (upsert_messages h).1.row_cases hfound with
    hold | ⟨_, row, _, _, _, _, hnew⟩ | ⟨_, hnew⟩
  · exact Or.inl ⟨r', ((s.message.byRowid_eq_some_iff _ _).mp hold).1, rfl⟩
  · right
    rw [hnew]
    rfl
  · right
    rw [hnew]
    rfl

/-- An upsert that succeeds has its message stored, unless a local row is newer. -/
theorem stored_of_upsert {env : Env} {s s' : Store} {v : UpsertRemoteMessageResult}
    (h : upsertRemoteMessageWithResult currentUid input env s = (.ok v, s'))
    (hfresh : s.byServerId input.serverMessageId = none →
      ∀ row, s.byInputLocalId currentUid input = some row →
        input.stale row = false) :
    Stored input.serverMessageId s' := by
  cases upsert_outcome h with
  | stale row hpos hrow hstale =>
      rcases hrow with hrow | ⟨hnone, hlocal⟩
      · obtain ⟨hmem, hsid⟩ := (s.byServerId_eq_some_iff hpos row).mp hrow
        exact ⟨row, hmem, hsid⟩
      · rw [hfresh hnone row hlocal] at hstale
        cases hstale
  | written base t row hpos htarget ht =>
      refine ⟨input.overwrite env.now row, ?_, rfl⟩
      rw [Store.takeRevoke_message, (Table.rows_of_update ht).1, Table.mem_updatedRows]
      exact ⟨row, (htarget.mem hpos).1, by simp⟩
  | inserted t hpos hnone hnoneLocal ht =>
      refine ⟨input.toRow env.now s.message.nextRowid, ?_, rfl⟩
      rw [Store.takeRevoke_message, (Table.rows_of_insert ht).2.1]
      simp

/-- An acknowledgement moves the message that it names. -/
theorem placedFrom_ack {messageId serverMessageId : Nat} {messageSeq : Int}
    {o : Table OutboxRow} {env : Env} {s s' : Store} {res : Except StoreError PUnit}
    (h : AckOutcome messageId serverMessageId messageSeq o env s res s') :
    PlacedFrom (fun place => ∃ row, s.message.byRowid messageId = some row ∧
      place =
        { row.place with
          serverMessageId := some serverMessageId
          pts := messageSeq }) s s' := by
  cases h with
  | failed e he =>
      exact PlacedFrom.refl s
  | acked row t hrow ht =>
      intro r' hr'
      rcases mem_of_update ht hr' with ⟨r₀, hr₀, hid, rfl⟩ | ⟨hr₀, -⟩
      · right
        have hmem := ((Table.mem_deleteWhere _ _ r₀).mp hr₀).1
        refine ⟨r₀, (s.message.byRowid_eq_some_iff _ _).mpr ⟨hmem, hid⟩, rfl⟩
      · exact Or.inl ⟨r', ((Table.mem_deleteWhere _ _ r').mp hr₀).1, rfl⟩

/-- A message that is created stands before all commits. -/
theorem placedFrom_createLocalMessage
    (newMessage : NewMessage) (localMessageId : Nat) (env : Env) (s : Store) :
    PlacedFrom (fun place => place.pts = 0) s
      ((createLocalMessage newMessage localMessageId).after env s) := by
  cases h : createLocalMessage newMessage localMessageId env s with
  | mk res s' =>
  unfold Exec.after
  rw [h]
  unfold createLocalMessage at h
  rw [nowMs_bind] at h
  cases res with
  | error e =>
      rw [(insertMessage_error h).1]
      exact PlacedFrom.refl s
  | ok n =>
      obtain ⟨t, ht, rfl⟩ := insertMessage_ok h
      intro r' hr'
      rw [(Table.rows_of_insert ht).2.1, List.mem_append, List.mem_singleton] at hr'
      rcases hr' with hold | rfl
      · exact Or.inl ⟨r', hold, rfl⟩
      · exact Or.inr rfl

end Messages

section History

variable (codec : Codec) (currentUid : Option Nat)

/-- The store after a history page is that after the upserts of its items. -/
theorem after_storeHistoryItems
    (items : List MessageHistoryItem) (channelType : Int) (env : Env) (s : Store) :
    (codec.storeHistoryItems currentUid items channelType).after env s =
      EventRun.run (Store.afterUpsert currentUid env) s
        (items.map (fun item => codec.historyItemToUpsertInput item channelType)) := by
  rw [← after_batchUpsert]
  unfold Exec.after Codec.storeHistoryItems
  rw [Exec.bind_run]
  split
  · rename_i results s₁ hrun
    rw [hrun]
    cases results.mapM (fun result => result.map (fun stored => stored.messageId)) with
    | ok ids =>
        rfl
    | error e =>
        rfl
  · rename_i e s₁ hrun
    rw [hrun]

/-- A history page puts its messages where the items say. -/
theorem placedFrom_history
    (items : List MessageHistoryItem) (channelType : Int) (env : Env) (s : Store) :
    PlacedFrom
      (fun place => ∃ item ∈ items,
        place = (codec.historyItemToUpsertInput item channelType).place) s
      ((codec.storeHistoryItems currentUid items channelType).after env s) := by
  rw [after_storeHistoryItems]
  induction items generalizing s with
  | nil =>
      exact PlacedFrom.refl s
  | cons item items ih =>
      rw [List.map_cons, EventRun.run_cons]
      refine PlacedFrom.trans _ _ _ ?_ ((ih _).mono ?_)
      · refine (placedFrom_upsert (rfl : _ = (_, s.afterUpsert currentUid env
          (codec.historyItemToUpsertInput item channelType)))).mono ?_
        exact fun place hplace => ⟨item, List.mem_cons_self, hplace⟩
      · rintro place ⟨other, hmem, hplace⟩
        exact ⟨other, List.mem_cons_of_mem _ hmem, hplace⟩

variable {codec currentUid}

/-- A message without local id leaves every stored message stored. -/
theorem Stored.afterUpsert {input : UpsertRemoteMessageInput}
    (hlocal : input.localMessageId = 0) {sid : Nat} {env : Env} {s : Store}
    (h : Stored sid s) :
    Stored sid (s.afterUpsert currentUid env input) := by
  obtain ⟨r, hr, hsid⟩ := h
  have hnone : s.byInputLocalId currentUid input = none := by
    simp [Store.byInputLocalId, UpsertRemoteMessageInput.hasLocalIdentity, hlocal]
  have htargets : ∀ {base row}, UpsertTarget currentUid input s base row →
      base = s.message ∧ s.byServerId input.serverMessageId = some row := by
    intro base row htarget
    cases htarget with
    | byServerId _ hrow _ _ =>
        exact ⟨rfl, hrow⟩
    | byLocalId _ _ hrow _ =>
        rw [hnone] at hrow
        cases hrow
    | merge _ _ _ _ hkeep _ =>
        rw [hnone] at hkeep
        cases hkeep
  cases upsertedMessages_afterUpsert currentUid input env s with
  | same _ hsame =>
      exact ⟨r, by rwa [hsame], hsid⟩
  | dropped _ row hpos htarget =>
      exact ⟨r, by rwa [(htargets htarget).1], hsid⟩
  | written base _ row hpos htarget ht =>
      obtain ⟨rfl, hfound⟩ := htargets htarget
      obtain ⟨hrow, hrowSid⟩ := (s.byServerId_eq_some_iff hpos row).mp hfound
      by_cases hid : r.id = row.id
      · -- the row that is written keeps its server id
        have hself : r = row := s.message.rowid_inj hr hrow hid
        refine ⟨input.overwrite env.now row, ?_, ?_⟩
        · rw [(Table.rows_of_update ht).1, Table.mem_updatedRows]
          exact ⟨row, hrow, by simp⟩
        · rw [← hsid, hself, hrowSid]
          rfl
      · refine ⟨r, ?_, hsid⟩
        rw [(Table.rows_of_update ht).1, Table.mem_updatedRows]
        exact ⟨r, hr, by simp [hid]⟩
  | inserted _ hpos hnoneServer hnoneLocal ht =>
      refine ⟨r, ?_, hsid⟩
      rw [(Table.rows_of_insert ht).2.1]
      exact List.mem_append_left _ hr

/-- A history page that meets no failure stores all its messages. -/
theorem stored_of_history
    (items : List MessageHistoryItem) (channelType now : Int) (s : Store)
    {item : MessageHistoryItem} (hitem : item ∈ items) (hpos : 0 < item.messageId) :
    Stored item.messageId
      ((codec.storeHistoryItems currentUid items channelType).after (.calm now) s) := by
  rw [after_storeHistoryItems]
  have hkeeps : ∀ (more : List MessageHistoryItem) (t : Store),
      Stored item.messageId t →
      Stored item.messageId (EventRun.run (Store.afterUpsert currentUid (.calm now)) t
        (more.map (fun item => codec.historyItemToUpsertInput item channelType))) := by
    intro more
    induction more with
    | nil =>
        exact fun t ht => ht
    | cons next more ih =>
        exact fun t ht => ih _ (ht.afterUpsert rfl)
  induction items generalizing s with
  | nil =>
      cases hitem
  | cons first items ih =>
      rcases List.mem_cons.mp hitem with rfl | hrest
      · refine hkeeps items _ ?_
        obtain ⟨v, s', hrun⟩ := upsert_calm_ok
          (codec.historyItemToUpsertInput item channelType) currentUid s now hpos
        have hstored := stored_of_upsert hrun (by
          intro _ row hrow
          have hlocal := (Store.mem_of_byInputLocalId hrow).2.2.2.2
          exact absurd hlocal (Nat.lt_irrefl 0))
        rw [show (Store.afterUpsert currentUid (Env.calm now) s
          (codec.historyItemToUpsertInput item channelType)) = s' by
            unfold Store.afterUpsert Exec.after
            rw [hrun]]
        exact hstored
      · exact ih _ hrest

end History

section Items

variable {codec : Codec} {currentUid : Option Nat}

/-- The upsert of an item says the same at every time, but for a missing send time. -/
theorem messageItemAction_upsert {scope : Option String} {now : Int}
    {item : SyncEntityItem MessageSyncPayload} {input : UpsertRemoteMessageInput}
    (h : codec.messageItemAction scope now item = .upsert input) :
    0 < messageItemServerId item ∧ item.deleted = false ∧
      0 < (canonicalOfItem scope 0 item).channelId ∧
      input = codec.messageItemInput scope now item := by
  unfold Codec.messageItemAction at h
  dsimp only at h
  split at h
  · cases h
  rename_i hsid
  split at h
  · cases h
  rename_i hlive
  split at h
  · cases h
  rename_i hchannel
  cases h
  exact ⟨Nat.pos_of_ne_zero hsid, by simpa using hlive, Nat.pos_of_ne_zero hchannel, rfl⟩

theorem messageItemAction_of_pos {scope : Option String} (now : Int)
    {item : SyncEntityItem MessageSyncPayload} (hsid : 0 < messageItemServerId item)
    (hlive : item.deleted = false)
    (hchannel : 0 < (canonicalOfItem scope 0 item).channelId) :
    codec.messageItemAction scope now item =
      .upsert (codec.messageItemInput scope now item) := by
  have hid : (canonicalOfItem scope now item).serverMessageId ≠ 0 :=
    Nat.ne_of_gt hsid
  have hknown : (canonicalOfItem scope now item).channelId ≠ 0 :=
    Nat.ne_of_gt hchannel
  unfold Codec.messageItemAction
  dsimp only
  rw [if_neg hid, hlive, if_neg Bool.false_ne_true, if_neg hknown]

/-- An item puts its message where its upsert says, if it has one. -/
theorem placedFrom_applyMessageItem {scope : Option String}
    {item : SyncEntityItem MessageSyncPayload} {env : Env} {s s' : Store}
    {res : Except StoreError PUnit}
    (h : codec.applyMessageItem currentUid scope item env s = (res, s')) :
    PlacedFrom (fun place => ∃ input,
      codec.messageItemAction scope env.now item = .upsert input ∧
        place = input.place) s s' := by
  unfold Codec.applyMessageItem at h
  rw [nowMs_bind] at h
  cases haction : codec.messageItemAction scope env.now item with
  | skip =>
      rw [haction] at h
      cases h
      exact PlacedFrom.refl s
  | revoke serverMessageId revoker =>
      rw [haction] at h
      dsimp only at h
      have hunmoved := Exec.Relates.bind (R := Unmoved) PlacedFrom.trans
        (unmoved_setMessageRevokeByServerMessageId serverMessageId true revoker)
        (fun _ => Exec.relates_pure PlacedFrom.refl PUnit.unit) env s
      unfold Exec.after at hunmoved
      rw [h] at hunmoved
      exact hunmoved.mono (fun _ hnew => hnew.elim)
  | upsert input =>
      rw [haction] at h
      have hplaced : ∀ {res : Except StoreError UpsertRemoteMessageResult} {t : Store},
          upsertRemoteMessageWithResult currentUid input env s = (res, t) →
          PlacedFrom (fun place => ∃ i, MessageItemAction.upsert input = .upsert i ∧
            place = i.place) s t :=
        fun hrun => (placedFrom_upsert hrun).mono (fun _ hplace => ⟨input, rfl, hplace⟩)
      cases res with
      | ok u =>
          obtain ⟨v, s₁, hrun, hrest⟩ := Exec.bind_ok.mp h
          cases hrest
          exact hplaced hrun
      | error e =>
          rcases Exec.bind_error.mp h with hrun | ⟨v, s₁, hrun, hrest⟩
          · exact hplaced hrun
          · cases hrest

/-- A message item that is applied has its message stored. -/
theorem stored_of_applyMessageItem {scope : Option String}
    {item : SyncEntityItem MessageSyncPayload} {env : Env} {s s' : Store} {u : PUnit}
    {input : UpsertRemoteMessageInput}
    (h : codec.applyMessageItem currentUid scope item env s = (.ok u, s'))
    (haction : codec.messageItemAction scope env.now item = .upsert input)
    (hfresh : s.byServerId input.serverMessageId = none →
      ∀ row, s.byInputLocalId currentUid input = some row →
        input.stale row = false) :
    Stored input.serverMessageId s' := by
  unfold Codec.applyMessageItem at h
  rw [nowMs_bind, haction] at h
  obtain ⟨v, s₁, hrun, hrest⟩ := Exec.bind_ok.mp h
  cases hrest
  exact stored_of_upsert hrun hfresh

/-- Only the items of messages put a message somewhere. -/
theorem placedFrom_applySyncEntity {entityType : String} {scope : Option String}
    {item : SyncEntityItem ItemPayload} {env : Env} {s s' : Store}
    {res : Except StoreError PUnit}
    (h : applySyncEntity codec currentUid entityType scope item env s = (res, s')) :
    PlacedFrom (fun place => entityType = "message" ∧ ∃ input,
      codec.messageItemAction scope env.now (readItem ItemPayload.asMessage item) =
        .upsert input ∧ place = input.place) s s' := by
  have hafter : ∀ {op : StoreM PUnit}, op.Relates Unmoved → op env s = (res, s') →
      Unmoved s s' := by
    intro op hop hrun
    have hunmoved := hop env s
    unfold Exec.after at hunmoved
    rwa [hrun] at hunmoved
  unfold applySyncEntity at h
  split at h
  · rename_i htype
    exact (placedFrom_applyMessageItem h).mono (fun _ hplace => ⟨htype, hplace⟩)
  · suffices hunmoved : Unmoved s s' from hunmoved.mono (fun _ hnew => hnew.elim)
    split at h
    · exact hafter (unmoved_applyExtraItem codec scope _) h
    · split at h
      · exact hafter (unmoved_applyReactionItem codec scope _) h
      · exact hafter (Exec.relates_pure PlacedFrom.refl PUnit.unit) h

end Items

end Difference
end PrivchatSdk
