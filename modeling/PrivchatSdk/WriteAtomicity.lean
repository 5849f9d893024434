import PrivchatSdk.DuplicateMerge
import PrivchatSdk.Store.Change

/-!
# What a failed write leaves of a message

A call of the store is several statements.  `mark_message_sent` runs them in one
transaction; the single upsert of a remote message, `set_message_revoke` and
`edit_message` run them one after another, and a statement that fails leaves what
the statements before it wrote.

`MessageWrite.Torn` lists where that happens, statement by statement.  Everywhere
else, and only there, a failed call leaves the rows of `message` and
`message_extra` as they were (`failed_write_leaves_iff`).
-/

namespace PrivchatSdk

open StatementExec RelTable

section Calls

/-- A call that writes one message. -/
inductive MessageWrite where
  | upsertRemoteMessage (currentUid : Option Nat) (input : UpsertRemoteMessageInput)
  | markMessageSent (messageId serverMessageId : Nat) (messageSeq : Int)
  | setMessageRevoke (messageId : Nat) (revoked : Bool) (revoker : Option Nat)
  | editMessage (messageId : Nat) (content : String) (editedAt : Int)

/-- Run the call. -/
def MessageWrite.exec : MessageWrite → StoreM PUnit
  | .upsertRemoteMessage currentUid input => do
      let _ ← upsertRemoteMessageWithResult currentUid input
      pure .unit
  | .markMessageSent messageId serverMessageId messageSeq =>
      PrivchatSdk.markMessageSent messageId serverMessageId messageSeq
  | .setMessageRevoke messageId revoked revoker =>
      PrivchatSdk.setMessageRevoke messageId revoked revoker
  | .editMessage messageId content editedAt =>
      PrivchatSdk.editMessage messageId content editedAt

/-- The rows of `message` and `message_extra` are the same. -/
def Store.SameMessages (s s' : Store) : Prop :=
  s'.message.rows = s.message.rows ∧ s'.messageExtra.rows = s.messageExtra.rows

/-- If the call fails, the rows are as they were before it. -/
def MessageWrite.LeavesOnError (op : MessageWrite) (env : Env) (s : Store) : Prop :=
  ∀ e s', op.exec env s = (.error e, s') → s.SameMessages s'

end Calls

section Torn

variable (env : Env) (s : Store)

/-- The update of a row is written, and the revoke flag after it fails. -/
def UpsertRemoteMessageInput.TornUpdate
    (input : UpsertRemoteMessageInput) (row : MessageRow) : Prop :=
  env.fault "update remote message" = false ∧ input.revoked = true ∧
    env.fault "mark remote message revoked" = true ∧ input.overwrite env.now row ≠ row

/-- The duplicate is deleted, and the update of the local row or its flag fails. -/
def UpsertRemoteMessageInput.TornMerge (input : UpsertRemoteMessageInput) : Prop :=
  env.fault "delete duplicate remote message" = false ∧
    (env.fault "update remote message" = true ∨
      input.revoked = true ∧ env.fault "mark remote message revoked" = true)

/-- The upsert stops half way, by what its two lookups found. -/
def UpsertRemoteMessageInput.TornFound (input : UpsertRemoteMessageInput) :
    Option MessageRow → Option MessageRow → Prop
  | some row, some localRow =>
      input.stale row = false ∧
        if localRow.id ≠ row.id then input.TornMerge env else input.TornUpdate env row
  | some row, none => input.stale row = false ∧ input.TornUpdate env row
  | none, some localRow => input.stale localRow = false ∧ input.TornUpdate env localRow
  | none, none =>
      env.fault "insert remote message" = false ∧ input.revoked = true ∧
        env.fault "mark remote message revoked" = true

/-- The call fails after a statement that changed a row. -/
def MessageWrite.Torn : MessageWrite → Prop
  | .upsertRemoteMessage currentUid input =>
      0 < input.serverMessageId ∧ env.fault "query remote message" = false ∧
        (input.hasLocalIdentity currentUid = true →
          env.fault "query local message by local_message_id" = false) ∧
        input.TornFound env (s.byServerId input.serverMessageId)
          (s.byInputLocalId currentUid input)
  | .markMessageSent _ _ _ => False
  | .setMessageRevoke messageId revoked revoker =>
      env.fault "query message for revoke" = false ∧
        (s.message.byRowid messageId).isSome = true ∧
        env.fault "set message revoke" = false ∧ revoked = true ∧
        env.fault "update revoked message row" = true ∧
        ¬ ∃ x, s.messageExtra.lookup messageId = some x ∧
          (revokeWrite revoked revoker env.now).apply x = x
  | .editMessage messageId content _ =>
      env.fault "update message content" = false ∧
        (env.fault "query message for edit" = true ∨
          env.fault "upsert message_extra edit" = true) ∧
        ∃ row, s.message.byRowid messageId = some row ∧
          ¬ (row.content = content ∧ row.updatedAt = env.now)

end Torn

section Rows

variable {s : Store}

theorem Store.SameMessages.refl (s : Store) : s.SameMessages s :=
  ⟨rfl, rfl⟩

theorem updatedRows_eq_self_iff {ρ κ : Type} [Record ρ κ]
    (t : Table ρ) (p : ρ → Bool) (f : ρ → ρ) :
    t.updatedRows p f = t.rows ↔ ∀ r ∈ t.rows, p r = true → f r = r := by
  unfold Table.updatedRows
  constructor
  · intro h r hr hp
    have heq : t.rows.map (fun r => if p r then f r else r) = t.rows.map id :=
      h.trans t.rows.map_id.symm
    have hr' := List.map_inj_left.mp heq r hr
    rw [if_pos hp] at hr'
    exact hr'
  · intro h
    refine (List.map_congr_left (fun r hr => ?_)).trans t.rows.map_id
    by_cases hp : p r = true
    · rw [if_pos hp, h r hr hp]
      rfl
    · rw [if_neg hp]
      rfl

/-- An update of one row changes nothing exactly if the row is what is written. -/
theorem updatedRows_byRowid_iff {t : Table MessageRow} {row : MessageRow}
    (hrow : row ∈ t.rows) (f : MessageRow → MessageRow) :
    t.updatedRows (fun r => Record.rowid r == row.id) f = t.rows ↔ f row = row := by
  rw [updatedRows_eq_self_iff]
  constructor
  · intro h
    exact h row hrow (by simp)
  · intro h r hr hid
    have heq : r = row := t.rowid_inj hr hrow (by simpa using hid)
    rw [heq, h]

/-- An upsert changes nothing exactly if it conflicts with a row that holds its cells. -/
theorem rows_upsertedExtra_iff
    (t : Table MessageExtraRow) (messageId channelId : Nat) (channelType : Int)
    (w : ExtraWrite) :
    (upsertedExtra t messageId channelId channelType w w).rows = t.rows ↔
      ∃ x, t.lookup messageId = some x ∧ w.apply x = x := by
  constructor
  · intro h
    have hself := lookup_upsertedExtra_self t messageId channelId channelType w w
    unfold Table.lookup at hself
    rw [h] at hself
    cases hx : t.lookup messageId with
    | none =>
        unfold Table.lookup at hx
        rw [hx] at hself
        cases hself
    | some x =>
        refine ⟨x, rfl, ?_⟩
        unfold Table.lookup at hx
        rw [hx, Option.map_some, Option.getD_some] at hself
        exact (Option.some.inj hself).symm
  · rintro ⟨x, hx, hw⟩
    obtain ⟨hmem, hkey⟩ := (t.lookup_eq_some_iff messageId x).mp hx
    unfold upsertedExtra Table.upsert
    rw [dif_neg (fun hnone => hnone x hmem hkey), Table.rows_modify,
      updatedRows_eq_self_iff]
    intro r hr hk
    rw [t.key_inj hr hmem (by simpa using hk) hkey, hw]

end Rows

section Statements

variable {α : Type} {c : String} {env : Env} {s : Store}
  {Q : α → Store → Prop} {E : StoreError → Store → Prop}

theorem ensures_nowMs {Q : Int → Store → Prop} :
    nowMs.Ensures env s Q E ↔ Q env.now s := by
  rfl

theorem ensures_exec {f : Store → Store} {Q : PUnit → Store → Prop} :
    (exec c f).Ensures env s Q E ↔
      (env.fault c = true → E (.storage c (some .io)) s) ∧
        (env.fault c = false → Q .unit (f s)) := by
  unfold Exec.Ensures exec stmt
  cases env.fault c <;> simp

theorem ensures_query {f : Store → α} :
    (query c f).Ensures env s Q E ↔
      (env.fault c = true → E (.storage c (some .io)) s) ∧
        (env.fault c = false → Q (f s) s) := by
  unfold Exec.Ensures query stmt
  cases env.fault c <;> simp

theorem ensures_queryRow {f : Store → Option α} {a : α} (h : f s = some a) :
    (queryRow c f).Ensures env s Q E ↔
      (env.fault c = true → E (.storage c (some .io)) s) ∧
        (env.fault c = false → Q a s) := by
  unfold Exec.Ensures queryRow stmt
  cases env.fault c <;> simp [h]

theorem ensures_updateMessage {messageId : Nat} {f : MessageRow → MessageRow}
    {hid : ∀ r, Record.rowid (f r) = Record.rowid r} {t : Table MessageRow}
    {Q : Nat → Store → Prop}
    (h : s.message.update (fun r => Record.rowid r == messageId) f hid = some t) :
    (updateMessage c messageId f hid).Ensures env s Q E ↔
      (env.fault c = true → E (.storage c (some .io)) s) ∧
        (env.fault c = false →
          Q (s.message.rows.countP (fun r => Record.rowid r == messageId))
            { s with message := t }) := by
  unfold Exec.Ensures updateMessage stmt
  simp only [h]
  cases env.fault c <;> simp

theorem ensures_modifyMessage {p : MessageRow → Bool} {f : MessageRow → MessageRow}
    {hid : ∀ r, Record.rowid (f r) = Record.rowid r}
    {hkeys : ∀ r, Record.keys (f r) = Record.keys r} {Q : Nat → Store → Prop} :
    (modifyMessage c p f hid hkeys).Ensures env s Q E ↔
      (env.fault c = true → E (.storage c (some .io)) s) ∧
        (env.fault c = false →
          Q (s.message.rows.countP p)
            { s with message := s.message.modify p f hid hkeys }) := by
  unfold Exec.Ensures modifyMessage stmt
  cases env.fault c <;> simp

theorem ensures_insertMessage {mk : Nat → MessageRow}
    {hid : ∀ n, Record.rowid (mk n) = n} {t : Table MessageRow} {n : Nat}
    {Q : Nat → Store → Prop} (h : s.message.insert mk hid = some (t, n)) :
    (insertMessage c mk hid).Ensures env s Q E ↔
      (env.fault c = true → E (.storage c (some .io)) s) ∧
        (env.fault c = false → Q n { s with message := t }) := by
  unfold Exec.Ensures insertMessage stmt
  cases env.fault c <;> simp [h]

/-- What a computation leaves on an error is a postcondition of its errors. -/
theorem ensures_error_iff {x : StoreM α} {P : Store → Prop} :
    x.Ensures env s (fun _ _ => True) (fun _ s' => P s') ↔
      ∀ e s', x env s = (.error e, s') → P s' := by
  unfold Exec.Ensures
  constructor
  · intro h e s' hrun
    rw [hrun] at h
    exact h
  · intro h
    cases hrun : x env s with
    | mk res s' =>
    cases res with
    | ok a =>
        trivial
    | error e =>
        exact h e s' hrun

end Statements

section Upsert

variable {currentUid : Option Nat} {input : UpsertRemoteMessageInput}
  {env : Env} {s : Store} {row : MessageRow} {P : Store → Prop}

/-- The flag is the last statement: if it fails, what was written before it stays. -/
theorem ensures_applyRemoteRevokeFlag (messageId : Nat) :
    (applyRemoteRevokeFlag messageId input).Ensures env s (fun _ _ => True)
        (fun _ s' => P s') ↔
      (input.revoked = true → env.fault "mark remote message revoked" = true → P s) := by
  unfold applyRemoteRevokeFlag
  split
  · rename_i hrevoked
    simp [ensures_nowMs, ensures_exec, hrevoked]
  · rename_i hplain
    simp [hplain]

theorem ensures_updateRow {base t : Table MessageRow}
    (ht : base.update (fun r => Record.rowid r == row.id) (input.overwrite env.now)
      (fun _ => rfl) = some t) :
    (updateRow row.id input env.now).Ensures env { s with message := base }
        (fun _ _ => True) (fun _ s' => P s') ↔
      (env.fault "update remote message" = true → P { s with message := base }) ∧
        (env.fault "update remote message" = false → input.revoked = true →
          env.fault "mark remote message revoked" = true → P { s with message := t }) := by
  unfold updateRow
  rw [Exec.ensures_bind, ensures_updateMessage (s := { s with message := base }) ht]
  simp only [Exec.ensures_bind, Exec.ensures_pure, ensures_applyRemoteRevokeFlag]

/-- Without a duplicate an update is torn where its flag fails. -/
theorem updateRow_leaves_iff (env : Env) (hpos : 0 < input.serverMessageId)
    (htarget : UpsertTarget currentUid input s s.message row) :
    (updateRow row.id input env.now).Ensures env s (fun _ _ => True)
        (fun _ s' => s.SameMessages s') ↔ ¬ input.TornUpdate env row := by
  obtain ⟨t, ht⟩ := htarget.exists_update hpos env.now
  have hsame : s.SameMessages { s with message := t } ↔ input.overwrite env.now row = row := by
    rw [Store.SameMessages, (Table.rows_of_update ht).1,
      updatedRows_byRowid_iff (htarget.mem hpos).1]
    exact and_iff_left rfl
  have hrun := ensures_updateRow (s := s) (P := fun s' => s.SameMessages s') ht
  refine hrun.trans ?_
  rw [hsame, UpsertRemoteMessageInput.TornUpdate]
  have hrefl : s.SameMessages { s with message := s.message } := .refl s
  tauto

/-- With the duplicate gone, every failure is seen. -/
theorem merge_leaves_iff {drop : MessageRow} (env : Env) (hpos : 0 < input.serverMessageId)
    (hdrop : s.byServerId input.serverMessageId = some drop)
    (htarget : UpsertTarget currentUid input s
      (s.message.deleteWhere (fun r => r.id == drop.id)) row) :
    (do
      deleteMessage "delete duplicate remote message" (fun r => r.id == drop.id)
      updateRow row.id input env.now : StoreM UpsertRemoteMessageResult).Ensures env s
        (fun _ _ => True) (fun _ s' => s.SameMessages s') ↔ ¬ input.TornMerge env := by
  obtain ⟨t, ht⟩ := htarget.exists_update hpos env.now
  obtain ⟨hmem, -⟩ := (s.byServerId_eq_some_iff hpos drop).mp hdrop
  have hdeleted : drop ∉ (s.message.deleteWhere (fun r => r.id == drop.id)).rows := by
    simp
  have hbase : ¬ s.SameMessages
      { s with message := s.message.deleteWhere (fun r => r.id == drop.id) } := by
    intro hsame
    exact hdeleted (hsame.1 ▸ hmem)
  have hupdated : ¬ s.SameMessages { s with message := t } := by
    intro hsame
    have hdrop' : drop ∈ t.rows := hsame.1 ▸ hmem
    rcases mem_of_update ht hdrop' with ⟨r, hr, -, heq⟩ | ⟨hr, -⟩
    · have hrid : drop.id = r.id := by
        rw [heq]
        rfl
      have hkept := ((Table.mem_deleteWhere _ _ r).mp hr).2
      simp [hrid] at hkept
    · exact hdeleted hr
  unfold deleteMessage
  rw [Exec.ensures_bind, ensures_exec, ensures_updateRow ht,
    UpsertRemoteMessageInput.TornMerge]
  have hrefl : s.SameMessages s := .refl s
  cases env.fault "update remote message" <;> tauto

/-- A message that is new is inserted, and then its flag may fail. -/
theorem insertRow_leaves_iff (env : Env) (hnone : s.byServerId input.serverMessageId = none) :
    (insertRow input env.now).Ensures env s (fun _ _ => True)
        (fun _ s' => s.SameMessages s') ↔
      ¬ (env.fault "insert remote message" = false ∧ input.revoked = true ∧
        env.fault "mark remote message revoked" = true) := by
  obtain ⟨t, ht⟩ := exists_insert_toRow hnone env.now
  have hinserted : ¬ s.SameMessages { s with message := t } := by
    intro hsame
    have hlength := congrArg List.length hsame.1
    rw [(Table.rows_of_insert ht).2.1, List.length_append, List.length_singleton] at hlength
    omega
  unfold insertRow
  rw [Exec.ensures_bind, ensures_insertMessage ht]
  simp only [Exec.ensures_bind, Exec.ensures_pure, ensures_applyRemoteRevokeFlag]
  have hrefl : s.SameMessages s := .refl s
  tauto

theorem upsertFound_leaves_iff
    (currentUid : Option Nat) (env : Env) (s : Store) (hpos : 0 < input.serverMessageId) :
    (upsertFound input env.now (s.byServerId input.serverMessageId)
        (s.byInputLocalId currentUid input)).Ensures env s (fun _ _ => True)
          (fun _ s' => s.SameMessages s') ↔
      ¬ input.TornFound env (s.byServerId input.serverMessageId)
        (s.byInputLocalId currentUid input) := by
  cases hrow : s.byServerId input.serverMessageId with
  | none =>
      cases hlocal : s.byInputLocalId currentUid input with
      | none =>
          exact insertRow_leaves_iff env hrow
      | some localRow =>
          unfold upsertFound UpsertRemoteMessageInput.TornFound
          cases hstale : input.stale localRow with
          | true =>
              simp [hstale]
          | false =>
              have htarget := UpsertTarget.byLocalId localRow hrow hlocal hstale
              simpa [hstale] using updateRow_leaves_iff env hpos htarget
  | some row =>
      cases hlocal : s.byInputLocalId currentUid input with
      | none =>
          unfold upsertFound UpsertRemoteMessageInput.TornFound
          cases hstale : input.stale row with
          | true =>
              simp [hstale]
          | false =>
              have htarget : UpsertTarget currentUid input s s.message row :=
                .byServerId row hrow hstale (by simp [hlocal])
              simpa [hstale] using updateRow_leaves_iff env hpos htarget
      | some localRow =>
          unfold upsertFound UpsertRemoteMessageInput.TornFound
          cases hstale : input.stale row with
          | true =>
              simp [hstale]
          | false =>
              by_cases hne : localRow.id = row.id
              · have htarget : UpsertTarget currentUid input s s.message row :=
                  .byServerId row hrow hstale (by simp [hlocal, hne])
                simpa [hstale, hne] using updateRow_leaves_iff env hpos htarget
              · have htarget := UpsertTarget.merge row localRow hrow hstale hlocal hne
                simpa [hstale, hne] using merge_leaves_iff env hpos hrow htarget

theorem upsert_leaves_iff :
    (upsertRemoteMessageWithResult currentUid input).Ensures env s (fun _ _ => True)
        (fun _ s' => s.SameMessages s') ↔
      ¬ (MessageWrite.upsertRemoteMessage currentUid input).Torn env s := by
  have hrefl : s.SameMessages s := .refl s
  unfold upsertRemoteMessageWithResult MessageWrite.Torn
  by_cases hzero : input.serverMessageId = 0
  · simp [hzero, hrefl]
  · have hpos : 0 < input.serverMessageId := Nat.pos_of_ne_zero hzero
    have hfound := upsertFound_leaves_iff currentUid env s hpos
    rw [if_neg hzero]
    simp only [Exec.ensures_bind, ensures_nowMs, ensures_query]
    unfold queryByLocalId
    by_cases hlocal : input.hasLocalIdentity currentUid = true
    · have hby : s.byInputLocalId currentUid input =
          s.byLocalId input.fromUid input.localMessageId := by
        unfold Store.byInputLocalId
        rw [if_pos hlocal]
      rw [hby] at hfound ⊢
      rw [if_pos hlocal, ensures_query, hfound]
      cases env.fault "query local message by local_message_id" <;> tauto
    · have hby : s.byInputLocalId currentUid input = none := by
        unfold Store.byInputLocalId
        rw [if_neg hlocal]
      rw [hby] at hfound ⊢
      rw [if_neg hlocal, Exec.ensures_pure, hfound]
      tauto

end Upsert

section Changes

variable {env : Env} {s : Store} {c notFound : String} {messageId : Nat}
  {f : MessageRow → MessageRow} {hid : ∀ r, Record.rowid (f r) = Record.rowid r}
  {hkeys : ∀ r, Record.keys (f r) = Record.keys r}
  {Q : PUnit → Store → Prop} {E : StoreError → Store → Prop}

/-- Where the row is stored, the update of the row fails for outside reasons only. -/
theorem ensures_modifyExisting {row : MessageRow}
    (hrow : s.message.byRowid messageId = some row) :
    (modifyExisting c notFound messageId f hid hkeys).Ensures env s Q E ↔
      (env.fault c = true → E (.storage c (some .io)) s) ∧
        (env.fault c = false → Q .unit
          { s with
            message := s.message.modify (fun r => r.id == messageId) f hid hkeys }) := by
  obtain ⟨hmem, hrid⟩ := (s.message.byRowid_eq_some_iff _ _).mp hrow
  have hcount : s.message.rows.countP (fun r => r.id == messageId) ≠ 0 := by
    have hpos : 0 < s.message.rows.countP (fun r => r.id == messageId) :=
      List.countP_pos_iff.mpr ⟨row, hmem, by simpa using hrid⟩
    omega
  unfold modifyExisting
  rw [Exec.ensures_bind, ensures_modifyMessage]
  simp [hcount]

/-- Where it is not stored, nothing is written and the call fails. -/
theorem ensures_modifyExisting_missing
    (hrow : s.message.byRowid messageId = none) :
    (modifyExisting c notFound messageId f hid hkeys).Ensures env s Q E ↔
      (env.fault c = true → E (.storage c (some .io)) s) ∧
        (env.fault c = false → E (.storage notFound none) s) := by
  have hnone : ∀ r ∈ s.message.rows, (r.id == messageId) = false := by
    intro r hr
    have hne := (s.message.byRowid_eq_none_iff messageId).mp hrow r hr
    simpa using hne
  have hcount : s.message.rows.countP (fun r => r.id == messageId) = 0 :=
    List.countP_eq_zero.mpr (fun r hr => by simp [hnone r hr])
  unfold modifyExisting
  rw [Exec.ensures_bind, ensures_modifyMessage, s.message.modify_eq_self _ f hid hkeys hnone]
  simp [hcount]

theorem setMessageRevoke_leaves_iff (messageId : Nat) (revoked : Bool)
    (revoker : Option Nat) :
    (setMessageRevoke messageId revoked revoker).Ensures env s (fun _ _ => True)
        (fun _ s' => s.SameMessages s') ↔
      ¬ (MessageWrite.setMessageRevoke messageId revoked revoker).Torn env s := by
  have hrefl : s.SameMessages s := .refl s
  unfold setMessageRevoke MessageWrite.Torn
  rw [Exec.ensures_bind, ensures_query]
  cases hrow : s.message.byRowid messageId with
  | none =>
      simp [hrefl, hrow]
  | some row =>
      have hextra : s.SameMessages
          { s with
            messageExtra := upsertedExtra s.messageExtra messageId row.channelId
              row.channelType (revokeWrite revoked revoker env.now)
              (revokeWrite revoked revoker env.now) } ↔
          ∃ x, s.messageExtra.lookup messageId = some x ∧
            (revokeWrite revoked revoker env.now).apply x = x :=
        (and_iff_right rfl).trans (rows_upsertedExtra_iff _ _ _ _ _)
      simp only [Exec.ensures_bind, ensures_nowMs, ensures_exec]
      cases revoked with
      | false =>
          simp [hrefl]
      | true =>
          have hmodify (f : Table MessageExtraRow) :
              ({ s with messageExtra := f } : Store).message.byRowid messageId = some row :=
            hrow
          rw [if_pos rfl]
          refine (Iff.and Iff.rfl (imp_congr Iff.rfl (Iff.and Iff.rfl (imp_congr Iff.rfl
            (ensures_modifyExisting (hmodify _)))))).trans ?_
          rw [hextra]
          simp [hrow, hrefl]

theorem editMessage_leaves_iff (messageId : Nat) (content : String) (editedAt : Int) :
    (editMessage messageId content editedAt).Ensures env s (fun _ _ => True)
        (fun _ s' => s.SameMessages s') ↔
      ¬ (MessageWrite.editMessage messageId content editedAt).Torn env s := by
  have hrefl : s.SameMessages s := .refl s
  unfold editMessage MessageWrite.Torn
  rw [Exec.ensures_bind, ensures_nowMs, Exec.ensures_bind]
  cases hrow : s.message.byRowid messageId with
  | none =>
      rw [ensures_modifyExisting_missing hrow]
      simp [hrow, hrefl]
  | some row =>
      obtain ⟨hmem, hid⟩ := (s.message.byRowid_eq_some_iff messageId row).mp hrow
      have hsame : s.SameMessages
          { s with
            message := s.message.modify (fun r => r.id == messageId)
              (fun r => { r with content := content, updatedAt := env.now })
              (fun _ => rfl) (fun _ => rfl) } ↔
          row.content = content ∧ row.updatedAt = env.now := by
        have hrows := updatedRows_byRowid_iff hmem
          (fun r => { r with content := content, updatedAt := env.now })
        rw [Store.SameMessages, and_iff_left rfl, Table.rows_modify, ← hid]
        refine hrows.trans ?_
        constructor
        · intro heq
          exact ⟨(congrArg MessageRow.content heq).symm,
            (congrArg MessageRow.updatedAt heq).symm⟩
        · rintro ⟨hcontent, hupdated⟩
          rw [← hcontent, ← hupdated]
      have hfound : (s.message.modify (fun r => r.id == messageId)
          (fun r => { r with content := content, updatedAt := env.now })
          (fun _ => rfl) (fun _ => rfl)).byRowid messageId =
          some { row with content := content, updatedAt := env.now } := by
        have hrid : row.id = messageId := hid
        rw [Table.byRowid_modify, hrow]
        simp [hrid]
      rw [ensures_modifyExisting hrow, Exec.ensures_bind, ensures_queryRow hfound,
        ensures_exec, hsame]
      have hexists : (∃ r, s.message.byRowid messageId = some r ∧
          ¬ (r.content = content ∧ r.updatedAt = env.now)) ↔
          ¬ (row.content = content ∧ row.updatedAt = env.now) := by
        simp [hrow]
      dsimp only
      rw [hexists]
      cases env.fault "query message for edit" <;>
        cases env.fault "upsert message_extra edit" <;> simp [hrefl]

end Changes

/-- Where the connection breaks at one statement. -/
def Env.failingAt (context : String) (now : Int) : Env where
  now := now
  fault := fun c => c == context

/-- The update of the local row fails after the remote row was deleted. -/
theorem failed_merge_loses_remote_row :
    ¬ (MessageWrite.upsertRemoteMessage (some 1) (.text 900 7 10 1 5 "hi")).LeavesOnError
      (.failingAt "update remote message" 2000) duplicatedStore := by
  intro hleaves
  have hrows := (hleaves _ _ rfl).1
  revert hrows
  decide +kernel

/--
A failed call leaves the rows of `message` and `message_extra` as they were exactly
if no statement fails behind one that changed a row.
-/
theorem failed_write_leaves_iff (op : MessageWrite) (env : Env) (s : Store) :
    op.LeavesOnError env s ↔ ¬ op.Torn env s := by
  rw [MessageWrite.LeavesOnError, ← ensures_error_iff]
  cases op with
  | upsertRemoteMessage currentUid input =>
      rw [← upsert_leaves_iff]
      unfold MessageWrite.exec
      simp only [Exec.ensures_bind, Exec.ensures_pure]
  | markMessageSent messageId serverMessageId messageSeq =>
      refine iff_of_true ?_ id
      rw [ensures_error_iff]
      intro e s' hrun
      rw [Exec.transaction_error hrun]
      exact .refl s
  | setMessageRevoke messageId revoked revoker =>
      exact setMessageRevoke_leaves_iff messageId revoked revoker
  | editMessage messageId content editedAt =>
      exact editMessage_leaves_iff messageId content editedAt

end PrivchatSdk
