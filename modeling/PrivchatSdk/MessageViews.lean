import Mathlib.Data.List.Find
import PrivchatSdk.MessagePlaces
import PrivchatSdk.Tombstone

/-!
# What one sees of a message

The content of a message stands in its row, the flag of a revoke in its extra row, and
every reaction in a row of its own.  `Store.view` puts together what they show under a
server id.  A revoke, a reaction and an upsert change the view of the one message that
they name, and each in one way.
-/

namespace PrivchatSdk

open StatementExec RelTable

section Views

/-- Type and content of a message, whether it is revoked, and who reacted with what. -/
@[ext] structure MessageView where
  shown : Int × String
  revoked : Bool
  reacted : Nat → String → Bool

/-- The reaction of a user with an emoji to a stored message. -/
def Store.reacted (s : Store) (messageId uid : Nat) (emoji : String) : Bool :=
  (s.messageReaction.lookup (messageId, uid, emoji)).any (fun r => !r.isDeleted)

def Store.viewOf (s : Store) (row : MessageRow) : MessageView where
  shown := row.visible
  revoked := s.revoke row.id
  reacted := s.reacted row.id

/-- The view of the message with a server id, if it is stored. -/
def Store.view (s : Store) (serverMessageId : Nat) : Option MessageView :=
  (s.byServerId serverMessageId).map s.viewOf

/-- What a revoke makes of a view. -/
def MessageView.revoke (v : MessageView) : MessageView :=
  { v with shown := placeholder, revoked := true }

/-- What a reaction makes of a view. -/
def MessageView.react (uid : Nat) (emoji : String) (on : Bool) (v : MessageView) :
    MessageView :=
  { v with reacted := fun u e => if u = uid ∧ e = emoji then on else v.reacted u e }

/-- What an upsert makes of the view of a stored message. -/
def MessageView.overwrite (input : UpsertRemoteMessageInput) (v : MessageView) :
    MessageView :=
  { v with
    shown := (input.messageType, input.content)
    revoked := v.revoked || input.revoked }

/-- The view of a message that an upsert inserts. -/
def UpsertRemoteMessageInput.view (input : UpsertRemoteMessageInput) : MessageView where
  shown := (input.messageType, input.content)
  revoked := input.revoked
  reacted _ _ := false

/-- All messages are of the channel, and nothing is attached to a row to come. -/
structure Store.OfChannel (channelId : Nat) (channelType : Int) (s : Store) : Prop where
  next : 0 < s.message.nextRowid
  ids : ∀ r ∈ s.message.rows, 0 < r.id
  rows : ∀ r ∈ s.message.rows, r.channelId = channelId ∧ r.channelType = channelType
  extras : ∀ x ∈ s.messageExtra.rows, x.messageId < s.message.nextRowid
  reactions : ∀ x ∈ s.messageReaction.rows, x.messageId < s.message.nextRowid

variable {channelId : Nat} {channelType : Int}

theorem Store.ofChannel_empty : Store.empty.OfChannel channelId channelType where
  next := Nat.one_pos
  ids _ hr := absurd hr List.not_mem_nil
  rows _ hr := absurd hr List.not_mem_nil
  extras _ hx := absurd hx List.not_mem_nil
  reactions _ hx := absurd hx List.not_mem_nil

end Views

section Frames

variable {s s' : Store} {S : Nat}

theorem Store.view_eq_none_iff :
    s.view S = none ↔ s.byServerId S = none := by
  unfold Store.view
  rw [Option.map_eq_none_iff]

theorem Store.view_of_row {row : MessageRow} (h : s.byServerId S = some row) :
    s.view S = some (s.viewOf row) := by
  unfold Store.view
  rw [h]
  rfl

/-- Messages whose rows, flags and reactions are as before look as before. -/
theorem Store.view_congr (hrow : s'.byServerId S = s.byServerId S)
    (hrevoke : ∀ row, s.byServerId S = some row → s'.revoke row.id = s.revoke row.id)
    (hreacted : ∀ row, s.byServerId S = some row →
      s'.reacted row.id = s.reacted row.id) : s'.view S = s.view S := by
  unfold Store.view
  rw [hrow]
  cases h : s.byServerId S with
  | none =>
      rfl
  | some row =>
      rw [Option.map_some, Option.map_some]
      unfold Store.viewOf
      rw [hrevoke row h, hreacted row h]

/-- Different messages stand in different rows. -/
theorem Store.id_ne_of_serverId {T : Nat} {row row' : MessageRow}
    (hrow : s.byServerId S = some row) (hrow' : s.byServerId T = some row')
    (hne : T ≠ S) : row'.id ≠ row.id := by
  intro hid
  have hmem := List.mem_of_find?_eq_some hrow
  have hmem' := List.mem_of_find?_eq_some hrow'
  have hsid : row.serverMessageId = some S := by simpa using List.find?_some hrow
  have hsid' : row'.serverMessageId = some T := by simpa using List.find?_some hrow'
  rw [s.message.rowid_inj hmem' hmem hid, hsid] at hsid'
  exact hne (Option.some.inj hsid').symm

/-- Rewriting one row, under the same server id, shows at that message only. -/
theorem Store.byServerId_of_updatedRows {m T : Nat} {f : MessageRow → MessageRow}
    (hrows : s'.message.rows = s.message.updatedRows (fun r => r.id == m) f)
    (hf : ∀ r ∈ s.message.rows, r.id = m →
      (f r).serverMessageId = r.serverMessageId) :
    s'.byServerId T = (s.byServerId T).map (fun r => if r.id = m then f r else r) := by
  unfold Store.byServerId
  rw [hrows]
  unfold Table.updatedRows
  rw [List.find?_map]
  have hsame : ∀ r ∈ s.message.rows,
      ((fun r : MessageRow => r.serverMessageId == some T) ∘
        fun r => if (r.id == m) = true then f r else r) r =
      (r.serverMessageId == some T) := by
    intro r hr
    rw [Function.comp_apply]
    by_cases hid : r.id = m
    · rw [if_pos (by simpa using hid), hf r hr hid]
    · rw [if_neg (by simpa using hid)]
  rw [List.find?_congr hsame]
  congr 1
  funext r
  simp only [beq_iff_eq]

end Frames

section Mutations

variable {s : Store} {S : Nat} {row : MessageRow} {channelId : Nat} {channelType : Int}

/-- The store after `set_message_revoke` of a stored message. -/
def Store.afterRevoke (s : Store) (row : MessageRow) (revoker : Option Nat) (now : Int) :
    Store :=
  { s with
    message := s.message.modify (fun r => r.id == row.id) (MessageRow.tombstone now)
      (MessageRow.rowid_tombstone now) (MessageRow.keys_tombstone now)
    messageExtra := upsertedExtra s.messageExtra row.id row.channelId row.channelType
      (revokeWrite true revoker now) (revokeWrite true revoker now) }

theorem setMessageRevoke_run (hrow : s.message.byRowid row.id = some row)
    (revoker : Option Nat) (now : Int) :
    setMessageRevoke row.id true revoker (.calm now) s =
      (.ok .unit, s.afterRevoke row revoker now) := by
  unfold setMessageRevoke
  rw [Exec.bind_run, query_calm]
  dsimp only
  rw [hrow]
  dsimp only
  rw [nowMs_bind, Exec.bind_run, exec_calm]
  dsimp only
  rw [if_pos rfl]
  exact modifyExisting_calm hrow

theorem view_afterRevoke (hrow : s.byServerId S = some row) (revoker : Option Nat)
    (now : Int) :
    (s.afterRevoke row revoker now).view S = (s.view S).map MessageView.revoke := by
  have hfound : (s.afterRevoke row revoker now).byServerId S =
      some (MessageRow.tombstone now row) := by
    rw [Store.byServerId_of_updatedRows (s := s) (f := MessageRow.tombstone now) rfl
      (fun _ _ _ => rfl), hrow,
      Option.map_some, if_pos rfl]
  rw [Store.view_of_row hfound, Store.view_of_row hrow, Option.map_some]
  congr 1
  have hflag : (s.afterRevoke row revoker now).revoke row.id = true :=
    revoke_write_self (fun _ => rfl) (fun _ => rfl)
  exact MessageView.ext rfl hflag rfl

theorem view_afterRevoke_of_ne {T : Nat} (hrow : s.byServerId S = some row)
    (revoker : Option Nat) (now : Int) (hne : T ≠ S) :
    (s.afterRevoke row revoker now).view T = s.view T := by
  refine Store.view_congr ?_ (fun other hother => ?_) (fun _ _ => rfl)
  · rw [Store.byServerId_of_updatedRows (s := s) (f := MessageRow.tombstone now) rfl
      (fun _ _ _ => rfl)]
    cases hother : s.byServerId T with
    | none =>
        rfl
    | some other =>
        rw [Option.map_some, if_neg (Store.id_ne_of_serverId hrow hother hne)]
  · exact revoke_write_of_ne (Store.id_ne_of_serverId hrow hother hne)

theorem Store.OfChannel.afterRevoke (h : s.OfChannel channelId channelType)
    (hrow : s.byServerId S = some row) (revoker : Option Nat) (now : Int) :
    (s.afterRevoke row revoker now).OfChannel channelId channelType where
  next := h.next
  ids r hr := by
    obtain ⟨r₀, hr₀, rfl⟩ := (Table.mem_updatedRows _ _ _ _).mp hr
    split
    · exact h.ids r₀ hr₀
    · exact h.ids r₀ hr₀
  rows r hr := by
    obtain ⟨r₀, hr₀, rfl⟩ := (Table.mem_updatedRows _ _ _ _).mp hr
    split
    · exact h.rows r₀ hr₀
    · exact h.rows r₀ hr₀
  extras x hx := by
    by_cases hid : x.messageId = row.id
    · rw [hid]
      exact s.message.rowid_lt row (List.mem_of_find?_eq_some hrow)
    · refine h.extras x (Table.mem_of_mem_upsert hx ?_)
      rw [keys_extra, List.mem_singleton]
      exact Ne.symm hid
  reactions := h.reactions

/-- The store after `upsert_message_reaction`. -/
def Store.afterReaction (s : Store) (input : UpsertMessageReactionInput) : Store :=
  { s with messageReaction := upsertedReaction s.messageReaction input }

/-- The row that a reaction upsert leaves under its key. -/
theorem lookup_upsertedReaction_self
    (t : Table MessageReactionRow) (input : UpsertMessageReactionInput) :
    (upsertedReaction t input).lookup (input.messageId, input.uid, input.emoji) =
      some (((t.lookup (input.messageId, input.uid, input.emoji)).map
        input.overwrite).getD (input.toRow t.nextRowid)) :=
  Table.lookup_upsert_self

theorem lookup_upsertedReaction_of_ne
    (t : Table MessageReactionRow) (input : UpsertMessageReactionInput)
    {k : Nat × Nat × String} (hne : k ≠ (input.messageId, input.uid, input.emoji)) :
    (upsertedReaction t input).lookup k = t.lookup k := by
  refine Table.lookup_upsert_of_ne ?_ hne
  intro r hr
  simpa [eq_comm] using hr

theorem mem_upsertedReaction
    {t : Table MessageReactionRow} {input : UpsertMessageReactionInput}
    {x : MessageReactionRow} (hx : x ∈ (upsertedReaction t input).rows)
    (hne : x.messageId ≠ input.messageId) : x ∈ t.rows := by
  unfold upsertedReaction at hx
  refine Table.mem_of_mem_upsert hx ?_
  rw [keys_reaction, List.mem_singleton]
  intro heq
  simp only [Prod.mk.injEq] at heq
  exact hne heq.1.symm

theorem reacted_afterReaction (s : Store) (input : UpsertMessageReactionInput)
    (uid : Nat) (emoji : String) :
    (s.afterReaction input).reacted input.messageId uid emoji =
      if uid = input.uid ∧ emoji = input.emoji then !input.isDeleted
      else s.reacted input.messageId uid emoji := by
  unfold Store.reacted Store.afterReaction
  dsimp only
  split
  · rename_i h
    obtain ⟨rfl, rfl⟩ := h
    rw [lookup_upsertedReaction_self, Option.any_some]
    cases s.messageReaction.lookup (input.messageId, input.uid, input.emoji) with
    | none =>
        rfl
    | some r =>
        rfl
  · rename_i h
    rw [lookup_upsertedReaction_of_ne]
    intro heq
    simp only [Prod.mk.injEq] at heq
    exact h heq.2

theorem reacted_afterReaction_of_ne {input : UpsertMessageReactionInput} {m : Nat}
    (hne : m ≠ input.messageId) :
    (s.afterReaction input).reacted m = s.reacted m := by
  funext uid emoji
  unfold Store.reacted Store.afterReaction
  dsimp only
  rw [lookup_upsertedReaction_of_ne]
  intro heq
  simp only [Prod.mk.injEq] at heq
  exact hne heq.1

theorem view_afterReaction {input : UpsertMessageReactionInput}
    (hrow : s.byServerId S = some row) (hid : input.messageId = row.id) :
    (s.afterReaction input).view S =
      (s.view S).map (MessageView.react input.uid input.emoji (!input.isDeleted)) := by
  have hfound : (s.afterReaction input).byServerId S = some row := hrow
  rw [Store.view_of_row hfound, Store.view_of_row hrow, Option.map_some]
  congr 1
  refine MessageView.ext rfl rfl ?_
  funext uid emoji
  have hreacted := reacted_afterReaction s input uid emoji
  rwa [hid] at hreacted

theorem view_afterReaction_of_ne {input : UpsertMessageReactionInput} {T : Nat}
    (hrow : s.byServerId S = some row) (hid : input.messageId = row.id) (hne : T ≠ S) :
    (s.afterReaction input).view T = s.view T := by
  refine Store.view_congr rfl (fun _ _ => rfl) (fun other hother => ?_)
  refine reacted_afterReaction_of_ne ?_
  rw [hid]
  exact Store.id_ne_of_serverId hrow hother hne

theorem Store.OfChannel.afterReaction (h : s.OfChannel channelId channelType)
    {input : UpsertMessageReactionInput} (hrow : s.byServerId S = some row)
    (hid : input.messageId = row.id) :
    (s.afterReaction input).OfChannel channelId channelType where
  next := h.next
  ids := h.ids
  rows := h.rows
  extras := h.extras
  reactions x hx := by
    by_cases hx' : x.messageId = row.id
    · rw [hx']
      exact s.message.rowid_lt row (List.mem_of_find?_eq_some hrow)
    · exact h.reactions x (mem_upsertedReaction hx (hid ▸ hx'))

end Mutations

section Upserts

variable {s : Store} {currentUid : Option Nat} {input : UpsertRemoteMessageInput}
variable {channelId : Nat} {channelType now : Int}

/-- A row that has the local id of an own message is that message. -/
def OwnRow (currentUid : Option Nat) (s : Store) (input : UpsertRemoteMessageInput) :
    Prop :=
  ∀ row, s.byInputLocalId currentUid input = some row →
    row.serverMessageId = some input.serverMessageId

/-- Then an upsert writes to the row of its message, without a duplicate to drop. -/
theorem UpsertTarget.own {base : Table MessageRow} {row : MessageRow}
    (h : UpsertTarget currentUid input s base row) (hpos : 0 < input.serverMessageId)
    (hown : OwnRow currentUid s input) :
    base = s.message ∧ s.byServerId input.serverMessageId = some row ∧
      input.stale row = false := by
  cases h with
  | byServerId _ hrow hfresh _ =>
      exact ⟨rfl, hrow, hfresh⟩
  | byLocalId _ hnone hrow _ =>
      exact absurd (hown row hrow) ((s.byServerId_eq_none_iff _).mp hnone row
        (Store.mem_of_byInputLocalId hrow).1)
  | merge drop _ hdrop _ hkeep hne =>
      have hkept : s.byServerId input.serverMessageId = some row :=
        (s.byServerId_eq_some_iff hpos row).mpr
          ⟨(Store.mem_of_byInputLocalId hkeep).1, hown row hkeep⟩
      rw [hdrop] at hkept
      cases hkept
      exact absurd rfl hne

/-- What an upsert does to the view of its message. -/
inductive UpsertedView (input : UpsertRemoteMessageInput) (s s' : Store) : Prop
  | stale (row : MessageRow) (hrow : s.byServerId input.serverMessageId = some row)
      (hstale : input.stale row = true) (hsame : s' = s)
  | overwritten (row : MessageRow)
      (hrow : s.byServerId input.serverMessageId = some row)
      (hfresh : input.stale row = false)
      (hview : s'.view input.serverMessageId =
        (s.view input.serverMessageId).map (MessageView.overwrite input))
  | inserted (hnone : s.view input.serverMessageId = none)
      (hview : s'.view input.serverMessageId = some input.view)

theorem revoke_takeRevoke_eq (m : Nat) :
    (s.takeRevoke m input now).revoke m = (s.revoke m || input.revoked) := by
  cases hrevoked : input.revoked with
  | true =>
      rw [revoke_takeRevoke_self hrevoked, Bool.or_true]
  | false =>
      unfold Store.takeRevoke
      rw [hrevoked, if_neg Bool.false_ne_true, Bool.or_false]

theorem takeRevoke_messageReaction (m : Nat) :
    (s.takeRevoke m input now).messageReaction = s.messageReaction := by
  unfold Store.takeRevoke
  split
  · rfl
  · rfl

theorem byServerId_takeRevoke (m T : Nat) :
    (s.takeRevoke m input now).byServerId T = s.byServerId T := by
  unfold Store.byServerId
  rw [Store.takeRevoke_message]

/-- Nothing is attached to a row that is not there yet. -/
theorem Store.OfChannel.revoke_next (h : s.OfChannel channelId channelType) :
    s.revoke s.message.nextRowid = false := by
  unfold Store.revoke
  rw [(s.messageExtra.lookup_eq_none_iff _).mpr]
  · rfl
  · intro x hx hkey
    rw [keys_extra, List.mem_singleton] at hkey
    exact absurd (h.extras x hx) (Nat.not_lt.mpr (Nat.le_of_eq hkey))

theorem Store.OfChannel.reacted_next (h : s.OfChannel channelId channelType) :
    s.reacted s.message.nextRowid = fun _ _ => false := by
  funext uid emoji
  unfold Store.reacted
  rw [(s.messageReaction.lookup_eq_none_iff _).mpr]
  · rfl
  · intro x hx hkey
    rw [keys_reaction, List.mem_singleton, Prod.mk.injEq] at hkey
    exact absurd (h.reactions x hx) (Nat.not_lt.mpr (Nat.le_of_eq hkey.1))

theorem upsertedView (h : s.OfChannel channelId channelType)
    (hpos : 0 < input.serverMessageId) (hown : OwnRow currentUid s input) (now : Int) :
    UpsertedView input s (s.afterUpsert currentUid (.calm now) input) := by
  rcases afterUpsert_calm currentUid s now hpos with
    ⟨row, hrow, hstale, hsame⟩ | ⟨base, t, row, htarget, ht, hafter⟩ |
      ⟨t, hnone, -, ht, hafter⟩
  · rcases hrow with hrow | ⟨hnone, hlocal⟩
    · exact .stale row hrow hstale hsame
    · exact absurd (hown row hlocal) ((s.byServerId_eq_none_iff _).mp hnone row
        (Store.mem_of_byInputLocalId hlocal).1)
  · obtain ⟨rfl, hrow, hfresh⟩ := htarget.own hpos hown
    refine .overwritten row hrow hfresh ?_
    have hsid := ((s.byServerId_eq_some_iff hpos row).mp hrow).2
    have hmem := ((s.byServerId_eq_some_iff hpos row).mp hrow).1
    have hfound : (s.afterUpsert currentUid (.calm now) input).byServerId
        input.serverMessageId = some (input.overwrite now row) := by
      rw [hafter, byServerId_takeRevoke,
        Store.byServerId_of_updatedRows (s := s) (Table.rows_of_update ht).1, hrow,
        Option.map_some, if_pos rfl]
      intro r hr hid
      rw [s.message.rowid_inj hr hmem hid, hsid]
      rfl
    rw [Store.view_of_row hfound, Store.view_of_row hrow, Option.map_some]
    congr 1
    refine MessageView.ext rfl ?_ ?_
    · change (s.afterUpsert currentUid (.calm now) input).revoke row.id = _
      rw [hafter, revoke_takeRevoke_eq]
      rfl
    · change (s.afterUpsert currentUid (.calm now) input).reacted row.id = _
      unfold Store.reacted
      rw [hafter, takeRevoke_messageReaction]
      rfl
  · refine .inserted (Store.view_eq_none_iff.mpr hnone) ?_
    have hfound : (s.afterUpsert currentUid (.calm now) input).byServerId
        input.serverMessageId = some (input.toRow now s.message.nextRowid) := by
      rw [hafter, byServerId_takeRevoke, Store.byServerId_eq_some_iff _ hpos,
        (Table.rows_of_insert ht).2.1]
      exact ⟨List.mem_append_right _ List.mem_cons_self, rfl⟩
    rw [Store.view_of_row hfound]
    congr 1
    refine MessageView.ext rfl ?_ ?_
    · change (s.afterUpsert currentUid (.calm now) input).revoke s.message.nextRowid = _
      rw [hafter, revoke_takeRevoke_eq]
      change (s.revoke s.message.nextRowid || input.revoked) = input.revoked
      rw [h.revoke_next, Bool.false_or]
    · change (s.afterUpsert currentUid (.calm now) input).reacted s.message.nextRowid = _
      have hreacted := h.reacted_next
      unfold Store.reacted at hreacted ⊢
      rw [hafter, takeRevoke_messageReaction]
      exact hreacted

theorem view_afterUpsert_of_ne {T : Nat} (hpos : 0 < input.serverMessageId)
    (hown : OwnRow currentUid s input) (now : Int) (hne : T ≠ input.serverMessageId) :
    (s.afterUpsert currentUid (.calm now) input).view T = s.view T := by
  rcases afterUpsert_calm currentUid s now hpos with
    ⟨row, -, -, hsame⟩ | ⟨base, t, row, htarget, ht, hafter⟩ | ⟨t, hnone, -, ht, hafter⟩
  · rw [hsame]
  · obtain ⟨rfl, hrow, -⟩ := htarget.own hpos hown
    have hsid := ((s.byServerId_eq_some_iff hpos row).mp hrow).2
    have hmem := ((s.byServerId_eq_some_iff hpos row).mp hrow).1
    rw [hafter]
    refine Store.view_congr ?_ (fun other hother => ?_) (fun other _ => ?_)
    · rw [byServerId_takeRevoke,
        Store.byServerId_of_updatedRows (s := s) (Table.rows_of_update ht).1]
      · cases hother : s.byServerId T with
        | none =>
            rfl
        | some other =>
            rw [Option.map_some, if_neg (Store.id_ne_of_serverId hrow hother hne)]
      · intro r hr hid
        rw [s.message.rowid_inj hr hmem hid, hsid]
        rfl
    · exact revoke_takeRevoke_of_ne (Store.id_ne_of_serverId hrow hother hne)
    · unfold Store.reacted
      rw [takeRevoke_messageReaction]
  · rw [hafter]
    have hold : ∀ other, s.byServerId T = some other →
        other.id ≠ s.message.nextRowid := fun other hother =>
      Nat.ne_of_lt (s.message.rowid_lt other (List.mem_of_find?_eq_some hother))
    refine Store.view_congr ?_ (fun other hother => ?_) (fun other _ => ?_)
    · rw [byServerId_takeRevoke]
      unfold Store.byServerId
      dsimp only
      rw [(Table.rows_of_insert ht).2.1, List.find?_append]
      have hlast : [input.toRow now s.message.nextRowid].find?
          (fun r => r.serverMessageId == some T) = none := by
        rw [List.find?_eq_none]
        intro r hr
        rw [List.mem_singleton.mp hr]
        simpa [UpsertRemoteMessageInput.toRow] using Ne.symm hne
      rw [hlast, Option.or_none]
    · exact revoke_takeRevoke_of_ne (hold other hother)
    · unfold Store.reacted
      rw [takeRevoke_messageReaction]

theorem Store.OfChannel.takeRevoke (h : s.OfChannel channelId channelType) {m : Nat}
    (hm : m < s.message.nextRowid) (now : Int) :
    (s.takeRevoke m input now).OfChannel channelId channelType := by
  unfold Store.takeRevoke
  split
  · refine
      { next := h.next, ids := h.ids, rows := h.rows, extras := ?_
        reactions := h.reactions }
    intro x hx
    by_cases hid : x.messageId = m
    · rw [hid]
      exact hm
    · refine h.extras x (Table.mem_of_mem_upsert hx ?_)
      rw [keys_extra, List.mem_singleton]
      exact Ne.symm hid
  · exact h

theorem Store.OfChannel.afterUpsert (h : s.OfChannel channelId channelType)
    (hpos : 0 < input.serverMessageId) (hown : OwnRow currentUid s input)
    (hchannel : input.channelId = channelId ∧ input.channelType = channelType)
    (now : Int) :
    (s.afterUpsert currentUid (.calm now) input).OfChannel channelId channelType := by
  rcases afterUpsert_calm currentUid s now hpos with
    ⟨row, -, -, hsame⟩ | ⟨base, t, row, htarget, ht, hafter⟩ | ⟨t, hnone, -, ht, hafter⟩
  · rw [hsame]
    exact h
  · obtain ⟨rfl, hrow, -⟩ := htarget.own hpos hown
    obtain ⟨hrows, hnext⟩ := Table.rows_of_update ht
    rw [hafter]
    refine Store.OfChannel.takeRevoke (s := { s with message := t }) ?_ ?_ now
    · refine
        { next := hnext ▸ h.next, ids := fun r hr => ?_, rows := fun r hr => ?_
          extras := ?_, reactions := ?_ }
      · rw [hrows, Table.mem_updatedRows] at hr
        obtain ⟨r₀, hr₀, rfl⟩ := hr
        split
        · exact h.ids r₀ hr₀
        · exact h.ids r₀ hr₀
      · rw [hrows, Table.mem_updatedRows] at hr
        obtain ⟨r₀, hr₀, rfl⟩ := hr
        split
        · exact hchannel
        · exact h.rows r₀ hr₀
      · rw [hnext]
        exact h.extras
      · rw [hnext]
        exact h.reactions
    · rw [hnext]
      exact s.message.rowid_lt row (List.mem_of_find?_eq_some hrow)
  · obtain ⟨-, hrows, hnext⟩ := Table.rows_of_insert ht
    rw [hafter]
    refine Store.OfChannel.takeRevoke (s := { s with message := t }) ?_ ?_ now
    · refine
        { next := hnext ▸ Nat.succ_pos _, ids := fun r hr => ?_, rows := fun r hr => ?_
          extras := fun x hx => ?_, reactions := fun x hx => ?_ }
      · rw [hrows, List.mem_append, List.mem_singleton] at hr
        rcases hr with hold | rfl
        · exact h.ids r hold
        · exact h.next
      · rw [hrows, List.mem_append, List.mem_singleton] at hr
        rcases hr with hold | rfl
        · exact h.rows r hold
        · exact hchannel
      · rw [hnext]
        exact Nat.lt_succ_of_lt (h.extras x hx)
      · rw [hnext]
        exact Nat.lt_succ_of_lt (h.reactions x hx)
    · rw [hnext]
      exact Nat.lt_succ_self _

end Upserts

end PrivchatSdk
