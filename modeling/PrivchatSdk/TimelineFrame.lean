import PrivchatSdk.OutboundFile
import PrivchatSdk.TimelineCache

/-!
# What a write leaves of a timeline

A timeline is made of the rows of a channel and of what their extras show
(`KeepsChannel.timeline`).  An operation on the row of one message and its extra
keeps every channel that does not hold the message (`Spares`), which is shown
statement by statement; for the operations that insert, delete or acknowledge the
channels they keep are given one by one.
-/

namespace PrivchatSdk

open StatementExec RelTable

section Channels

/-- The row belongs to the timeline of `key`. -/
def MessageRow.inChannel (key : Session.ChannelCacheKey) (r : MessageRow) : Bool :=
  r.channelId == key.channelId && r.channelType == key.channelType

/-- The channel of a row. -/
def MessageRow.channelKey (r : MessageRow) : Session.ChannelCacheKey where
  channelId := r.channelId
  channelType := r.channelType

theorem MessageRow.inChannel_iff {key : Session.ChannelCacheKey} {r : MessageRow} :
    r.inChannel key = true ↔ r.channelKey = key := by
  unfold MessageRow.inChannel MessageRow.channelKey
  cases key
  simp

/-- The channel holds the message. -/
def Store.holds (s : Store) (key : Session.ChannelCacheKey) (messageId : Nat) : Prop :=
  ∃ r ∈ s.message.rows, r.id = messageId ∧ r.inChannel key = true

/-- The rows of a channel are kept, and what their extras show. -/
structure KeepsChannel (key : Session.ChannelCacheKey) (s s' : Store) : Prop where
  rows : s'.message.rows.filter (MessageRow.inChannel key) =
    s.message.rows.filter (MessageRow.inChannel key)
  shown : ∀ r ∈ s.message.rows, r.inChannel key = true →
    r.toStored (s'.messageExtra.lookup r.id) =
      r.toStored (s.messageExtra.lookup r.id)

variable {key : Session.ChannelCacheKey} {n : Nat}

theorem KeepsChannel.refl (key : Session.ChannelCacheKey) (s : Store) :
    KeepsChannel key s s where
  rows := rfl
  shown _ _ _ := rfl

theorem KeepsChannel.mem
    {s s' : Store} (h : KeepsChannel key s s') {r : MessageRow}
    (hkey : r.inChannel key = true) :
    r ∈ s'.message.rows ↔ r ∈ s.message.rows := by
  have hiff : r ∈ s'.message.rows.filter (MessageRow.inChannel key) ↔
      r ∈ s.message.rows.filter (MessageRow.inChannel key) := by
    rw [h.rows]
  simpa [List.mem_filter, hkey] using hiff

theorem KeepsChannel.trans
    (s t u : Store) (h : KeepsChannel key s t) (h' : KeepsChannel key t u) :
    KeepsChannel key s u where
  rows := h'.rows.trans h.rows
  shown r hr hkey :=
    (h'.shown r ((h.mem hkey).mpr hr) hkey).trans (h.shown r hr hkey)

/-- A timeline is made of nothing else. -/
theorem KeepsChannel.timeline
    {s s' : Store} (h : KeepsChannel key s s') : s'.timeline key = s.timeline key := by
  have hrows : s'.timelineRows key = s.timelineRows key := by
    unfold Store.timelineRows
    have hfilter := h.rows
    unfold MessageRow.inChannel at hfilter
    rw [hfilter]
  unfold Store.timeline
  rw [hrows]
  refine List.map_congr_left ?_
  intro r hr
  obtain ⟨hmem, hid, htype⟩ := Store.mem_timelineRows.mp hr
  exact h.shown r hmem (by simp [MessageRow.inChannel, hid, htype])

/-- Statements over other tables. -/
theorem KeepsChannel.of_same
    {s s' : Store} (hm : s'.message = s.message)
    (he : s'.messageExtra = s.messageExtra) : KeepsChannel key s s' where
  rows := by rw [hm]
  shown r _ _ := by rw [he]

/-- A channel is kept if its rows are, and the extras of its messages. -/
theorem KeepsChannel.of_mem
    {s s' : Store}
    (hrows : ∀ r : MessageRow, r.inChannel key = true →
      (r ∈ s'.message.rows ↔ r ∈ s.message.rows))
    (hextra : ∀ r ∈ s.message.rows, r.inChannel key = true →
      s'.messageExtra.lookup r.id = s.messageExtra.lookup r.id) :
    KeepsChannel key s s' where
  rows := by
    have hnodup (t : Table MessageRow) :
        (t.rows.filter (MessageRow.inChannel key)).Nodup := by
      refine (t.sorted.filter _).imp ?_
      rintro a b hab rfl
      exact Nat.lt_irrefl _ hab
    refine List.Perm.eq_of_pairwise
      (fun a b _ _ (hab : a.id < b.id) hba => absurd hab (Nat.lt_asymm hba))
      (s'.message.sorted.filter _) (s.message.sorted.filter _)
      ((List.perm_ext_iff_of_nodup (hnodup _) (hnodup _)).mpr ?_)
    intro r
    rw [List.mem_filter, List.mem_filter]
    refine and_congr_left (fun hkey => ?_)
    exact hrows r hkey
  shown r hr hkey := by rw [hextra r hr hkey]

end Channels

section Frame

variable {key : Session.ChannelCacheKey} {n : Nat}

/-- If the channel does not hold the message, it is kept, and still does not. -/
def Spares (n : Nat) (key : Session.ChannelCacheKey) (s s' : Store) : Prop :=
  ¬ s.holds key n → KeepsChannel key s s' ∧ ¬ s'.holds key n

theorem Spares.refl (n : Nat) (key : Session.ChannelCacheKey) (s : Store) :
    Spares n key s s :=
  fun h => ⟨KeepsChannel.refl key s, h⟩

theorem Spares.trans
    (s t u : Store) (h : Spares n key s t) (h' : Spares n key t u) :
    Spares n key s u := by
  intro hs
  obtain ⟨hst, ht⟩ := h hs
  obtain ⟨htu, hu⟩ := h' ht
  exact ⟨KeepsChannel.trans s t u hst htu, hu⟩

theorem Spares.of_same
    {s s' : Store} (hm : s'.message = s.message)
    (he : s'.messageExtra = s.messageExtra) : Spares n key s s' := by
  intro h
  refine ⟨KeepsChannel.of_same hm he, ?_⟩
  unfold Store.holds
  rw [hm]
  exact h

/-- The row of the message is written in its place. -/
theorem Spares.of_updatedRows
    {s : Store} {t : Table MessageRow} {f : MessageRow → MessageRow}
    (hrows : t.rows = s.message.updatedRows (fun r => r.id == n) f)
    (hf : ∀ r, (f r).channelKey = r.channelKey) :
    Spares n key s { s with message := t } := by
  intro h
  have hchannel (r : MessageRow) : (f r).inChannel key = r.inChannel key := by
    rw [Bool.eq_iff_iff, MessageRow.inChannel_iff, MessageRow.inChannel_iff, hf]
  have hmem : ∀ r : MessageRow, r.inChannel key = true →
      (r ∈ t.rows ↔ r ∈ s.message.rows) := by
    intro r hkey
    rw [hrows, Table.mem_updatedRows]
    constructor
    · rintro ⟨r₀, hr₀, rfl⟩
      split at hkey
      · rename_i hn
        rw [hchannel] at hkey
        exact absurd ⟨r₀, hr₀, by simpa using hn, hkey⟩ h
      · rename_i hn
        rw [if_neg hn]
        exact hr₀
    · intro hr
      refine ⟨r, hr, if_neg ?_⟩
      intro hn
      exact h ⟨r, hr, by simpa using hn, hkey⟩
  refine ⟨KeepsChannel.of_mem hmem (fun _ _ _ => rfl), ?_⟩
  rintro ⟨r, hr, hrn, hkey⟩
  exact h ⟨r, (hmem r hkey).mp hr, hrn, hkey⟩

/-- The extra of the message is written. -/
theorem Spares.of_extra
    (s : Store) (channelId : Nat) (channelType : Int) (ins upd : ExtraWrite) :
    Spares n key s
      { s with messageExtra :=
          upsertedExtra s.messageExtra n channelId channelType ins upd } := by
  intro h
  refine ⟨KeepsChannel.of_mem (fun _ _ => Iff.rfl) ?_, h⟩
  intro r hr hkey
  refine lookup_upsertedExtra_of_ne _ _ _ _ _ _ ?_
  intro hn
  exact h ⟨r, hr, hn, hkey⟩

theorem spares_modifyMessage
    (context : String) (f : MessageRow → MessageRow) (hid hkeys)
    (hf : ∀ r, (f r).channelKey = r.channelKey) :
    (modifyMessage context (fun r => r.id == n) f hid hkeys).Relates
      (Spares n key) := by
  refine relates_stmt (Spares.refl n key) ?_
  intro s a s' h
  cases h
  exact Spares.of_updatedRows (s.message.rows_modify _ f hid hkeys) hf

theorem spares_updateMessage
    (context : String) (f : MessageRow → MessageRow) (hid)
    (hf : ∀ r, (f r).channelKey = r.channelKey) :
    (updateMessage context n f hid).Relates (Spares n key) := by
  refine relates_stmt (Spares.refl n key) ?_
  intro s a s' h
  split at h
  · rename_i t ht
    cases h
    exact Spares.of_updatedRows (Table.rows_of_update ht).1 hf
  · cases h

theorem spares_modifyExisting
    (context notFound : String) (f : MessageRow → MessageRow) (hid hkeys)
    (hf : ∀ r, (f r).channelKey = r.channelKey) :
    (modifyExisting context notFound n f hid hkeys).Relates (Spares n key) := by
  refine Exec.Relates.bind Spares.trans
    (spares_modifyMessage context f hid hkeys hf) (fun updated => ?_)
  exact Exec.Relates.ite (Exec.relates_fail (Spares.refl n key) _)
    (Exec.relates_pure (Spares.refl n key) _)

theorem spares_upsertOutbox
    (context : String) (commandId : CommandId) (commandType : String)
    (messageId channelId : Nat) (payload : List UInt8) (routeKey : Option String)
    (now : Int) :
    (upsertOutbox context commandId commandType messageId channelId payload routeKey
      now).Relates (Spares n key) := by
  refine relates_stmt (Spares.refl n key) ?_
  intro s a s' h
  split at h
  · cases h
    exact Spares.of_same rfl rfl
  · split at h
    · cases h
      exact Spares.of_same rfl rfl
    · cases h

end Frame

section Operations

variable (key : Session.ChannelCacheKey) (messageId : Nat)

/-- `update_media_downloaded`. -/
def updateMediaDownloaded (messageId : Nat) (downloaded : Bool) : StoreM PUnit := do
  let now ← nowMs
  let _ ← modifyMessage "update media_downloaded" (fun r => r.id == messageId)
    (fun r => { r with mediaDownloaded := downloaded, updatedAt := now })
    (fun _ => rfl) (fun _ => rfl)
  pure .unit

theorem spares_updateThumbStatus (thumbStatus : Int) :
    (updateThumbStatus messageId thumbStatus).Relates (Spares messageId key) :=
  Exec.Relates.bind Spares.trans (relates_nowMs (Spares.refl messageId key))
    (fun _ => spares_modifyMessage _ _ _ _ (fun _ => rfl))

theorem spares_updateMediaDownloaded (downloaded : Bool) :
    (updateMediaDownloaded messageId downloaded).Relates (Spares messageId key) := by
  refine Exec.Relates.bind Spares.trans (relates_nowMs (Spares.refl messageId key))
    (fun now => ?_)
  exact Exec.Relates.bind Spares.trans (spares_modifyMessage _ _ _ _ (fun _ => rfl))
    (fun _ => Exec.relates_pure (Spares.refl messageId key) _)

theorem spares_updateMessageStatus (status : Int) :
    (updateMessageStatus messageId status).Relates (Spares messageId key) :=
  Exec.Relates.bind Spares.trans (relates_nowMs (Spares.refl messageId key))
    (fun _ => spares_modifyExisting _ _ _ _ _ (fun _ => rfl))

theorem spares_updateMessageContentLocal (content : String) :
    (updateMessageContentLocal messageId content).Relates (Spares messageId key) :=
  Exec.Relates.bind Spares.trans (relates_nowMs (Spares.refl messageId key))
    (fun _ => spares_modifyExisting _ _ _ _ _ (fun _ => rfl))

theorem spares_updateLocalMessageId (localMessageId : Nat) :
    (updateLocalMessageId messageId localMessageId).Relates (Spares messageId key) :=
  Exec.Relates.bind Spares.trans (relates_nowMs (Spares.refl messageId key))
    (fun _ => spares_modifyExisting _ _ _ _ _ (fun _ => rfl))

theorem spares_finalizeLocalAttachment (content : String) (thumbStatus : Int) :
    (finalizeLocalAttachment messageId content thumbStatus).Relates
      (Spares messageId key) := by
  have hrefl := Spares.refl messageId key
  refine Exec.Relates.bind Spares.trans (relates_nowMs hrefl) (fun now => ?_)
  refine Exec.Relates.bind Spares.trans
    (spares_modifyMessage _ _ _ _ (fun _ => rfl)) (fun _ => ?_)
  exact Exec.Relates.bind Spares.trans (relates_queryRow hrefl _ _)
    (fun row => Exec.relates_pure hrefl _)

theorem spares_editMessage (content : String) (editedAt : Int) :
    (editMessage messageId content editedAt).Relates (Spares messageId key) := by
  have hrefl := Spares.refl messageId key
  refine Exec.Relates.bind Spares.trans (relates_nowMs hrefl) (fun now => ?_)
  refine Exec.Relates.bind Spares.trans
    (spares_modifyExisting _ _ _ _ _ (fun _ => rfl)) (fun _ => ?_)
  refine Exec.Relates.bind Spares.trans (relates_queryRow hrefl _ _) (fun row => ?_)
  exact relates_exec hrefl _ (fun s => Spares.of_extra s _ _ _ _)

theorem spares_setMessageRevoke (revoked : Bool) (revoker : Option Nat) :
    (setMessageRevoke messageId revoked revoker).Relates (Spares messageId key) := by
  have hrefl := Spares.refl messageId key
  refine Exec.Relates.bind Spares.trans (relates_query hrefl _ _) (fun found => ?_)
  cases found with
  | none =>
      exact Exec.relates_pure hrefl _
  | some row =>
      refine Exec.Relates.bind Spares.trans (relates_nowMs hrefl) (fun now => ?_)
      refine Exec.Relates.bind Spares.trans
        (relates_exec hrefl _ (fun s => Spares.of_extra s _ _ _ _)) (fun _ => ?_)
      exact Exec.Relates.ite (spares_modifyExisting _ _ _ _ _ (fun _ => rfl))
        (Exec.relates_pure hrefl _)

theorem spares_outboxEnqueue
    (commandType : String) (channelId : Nat) (payload : List UInt8)
    (routeKey : Option String) :
    (outboxEnqueue messageId commandType channelId payload routeKey).Relates
      (Spares messageId key) := by
  have hrefl := Spares.refl messageId key
  refine relates_withTx hrefl Spares.trans ?_
  refine Exec.Relates.bind Spares.trans (relates_nowMs hrefl) (fun now => ?_)
  refine Exec.Relates.bind Spares.trans (relates_query hrefl _ _) (fun found => ?_)
  refine Exec.Relates.ite (Exec.relates_fail hrefl _) ?_
  exact Exec.Relates.bind Spares.trans (spares_modifyMessage _ _ _ _ (fun _ => rfl))
    (fun _ => spares_upsertOutbox _ _ _ _ _ _ _ _)

theorem spares_finalizeAttachmentAndEnqueue
    (content : String) (thumbStatus : Int) (routeKey : String)
    (payload : List UInt8) :
    (finalizeAttachmentAndEnqueue messageId content thumbStatus routeKey
      payload).Relates (Spares messageId key) := by
  have hrefl := Spares.refl messageId key
  refine relates_withTx hrefl Spares.trans ?_
  refine Exec.Relates.bind Spares.trans (relates_nowMs hrefl) (fun now => ?_)
  refine Exec.Relates.bind Spares.trans (relates_queryRow hrefl _ _) (fun row => ?_)
  refine Exec.Relates.ite (Exec.relates_fail hrefl _) ?_
  refine Exec.Relates.bind Spares.trans (spares_modifyMessage _ _ _ _ (fun _ => rfl))
    (fun _ => ?_)
  exact Exec.Relates.bind Spares.trans (spares_upsertOutbox _ _ _ _ _ _ _ _)
    (fun _ => Exec.relates_pure hrefl _)

theorem spares_outboxReject (status : Int) :
    (outboxReject messageId status).Relates (Spares messageId key) := by
  have hrefl := Spares.refl messageId key
  refine relates_withTx hrefl Spares.trans ?_
  refine Exec.Relates.bind Spares.trans (relates_nowMs hrefl) (fun now => ?_)
  refine Exec.Relates.bind Spares.trans (spares_modifyMessage _ _ _ _ (fun _ => rfl))
    (fun _ => ?_)
  exact relates_exec hrefl _ (fun s => Spares.of_same rfl rfl)

theorem spares_outboxReconcileSent (serverMessageId : Nat) :
    (outboxReconcileSent messageId serverMessageId).Relates
      (Spares messageId key) := by
  have hrefl := Spares.refl messageId key
  refine relates_withTx hrefl Spares.trans ?_
  refine Exec.Relates.bind Spares.trans (relates_nowMs hrefl) (fun now => ?_)
  refine Exec.Relates.bind Spares.trans (spares_updateMessage _ _ _ (fun _ => rfl))
    (fun _ => ?_)
  exact relates_exec hrefl _ (fun s => Spares.of_same rfl rfl)

end Operations

section Rest

variable {key : Session.ChannelCacheKey} {env : Env} {s s' : Store}

/-- The channel of a new message. -/
def NewMessage.channelKey (input : NewMessage) : Session.ChannelCacheKey where
  channelId := input.channelId
  channelType := input.channelType

/-- The channel of a message that was read. -/
def StoredMessage.channelKey (m : StoredMessage) : Session.ChannelCacheKey where
  channelId := m.channelId
  channelType := m.channelType

theorem KeepsChannel.of_insert
    {t : Table MessageRow} {mk : Nat → MessageRow} {hid} {n : Nat}
    (ht : s.message.insert mk hid = some (t, n))
    (hne : (mk s.message.nextRowid).channelKey ≠ key) (o : Table OutboxRow) :
    KeepsChannel key s { s with message := t, outbox := o } := by
  refine KeepsChannel.of_mem ?_ (fun _ _ _ => rfl)
  intro r hkey
  dsimp only
  rw [(Table.rows_of_insert ht).2.1, List.mem_append, List.mem_singleton]
  constructor
  · rintro (hr | rfl)
    · exact hr
    · exact absurd (MessageRow.inChannel_iff.mp hkey) hne
  · exact Or.inl

theorem createLocalMessage_keeps
    {input : NewMessage} {localMessageId : Nat} {res : Except StoreError Nat}
    (h : createLocalMessage input localMessageId env s = (res, s')) :
    ((∃ n, res = .ok n) ∧ input.channelKey = key) ∨ KeepsChannel key s s' := by
  unfold createLocalMessage at h
  rw [nowMs_bind] at h
  cases res with
  | error e =>
      cases (insertMessage_error h).1
      exact Or.inr (KeepsChannel.refl key s)
  | ok n =>
      obtain ⟨t, ht, rfl⟩ := insertMessage_ok h
      by_cases hkey : input.channelKey = key
      · exact Or.inl ⟨⟨n, rfl⟩, hkey⟩
      · exact Or.inr (KeepsChannel.of_insert ht hkey s.outbox)

theorem createLocalMessageQueued_keeps
    {input : NewMessage} {localMessageId : Nat} {commandType : String}
    {payload : List UInt8} {routeKey : Option String} {res : Except StoreError Nat}
    (h : createLocalMessageQueued input localMessageId commandType payload routeKey
      env s = (res, s')) :
    ((∃ n, res = .ok n) ∧ input.channelKey = key) ∨ KeepsChannel key s s' := by
  have hcreated := createLocalMessageQueued_outcome h
  cases hcreated with
  | failed e he =>
      exact Or.inr (KeepsChannel.refl key s)
  | created t o n hpos ht ho =>
      by_cases hkey : input.channelKey = key
      · exact Or.inl ⟨⟨_, rfl⟩, hkey⟩
      · exact Or.inr (KeepsChannel.of_insert ht hkey o)

theorem filter_eq_of_forall
    {α : Type} {o : Option α} {p : α → Bool} (h : ∀ a, o = some a → p a = true) :
    o.filter p = o := by
  cases o with
  | none =>
      rfl
  | some a =>
      rw [Option.filter_some, h a rfl, if_pos rfl]

theorem deleteMessageLocal_keeps
    {messageId : Nat} {res : Except StoreError (Option StoredMessage)}
    (h : deleteMessageLocal messageId env s = (res, s')) :
    (∃ stored, res = .ok (some stored) ∧ stored.channelKey = key) ∨
      KeepsChannel key s s' := by
  rcases deleteMessageLocal_cases h with ⟨rfl, -⟩ | ⟨stored, rfl, hstored, rfl⟩
  · exact Or.inr (KeepsChannel.refl key _)
  · obtain ⟨row, hrow, rfl⟩ := Option.map_eq_some_iff.mp hstored
    obtain ⟨hmem, hid⟩ := (s.message.byRowid_eq_some_iff _ _).mp hrow
    by_cases hkey : row.channelKey = key
    · exact Or.inl ⟨_, rfl, hkey⟩
    · have hother (r : MessageRow) (hr : r ∈ s.message.rows)
          (hrkey : r.inChannel key = true) : (r.id == messageId) = false := by
        rw [beq_eq_false_iff_ne]
        intro hrid
        have hrow' := s.message.rowid_inj hr hmem (hrid.trans hid.symm)
        subst hrow'
        exact hkey (MessageRow.inChannel_iff.mp hrkey)
      refine Or.inr (KeepsChannel.of_mem ?_ ?_)
      · intro r hrkey
        unfold Store.withoutMessage
        dsimp only
        rw [Table.mem_deleteWhere]
        exact ⟨fun hr => hr.1, fun hr => ⟨hr, hother r hr hrkey⟩⟩
      · intro r hr hrkey
        unfold Store.withoutMessage
        dsimp only
        rw [Table.lookup_deleteWhere]
        refine filter_eq_of_forall ?_
        intro x hx
        have hxid := ((Table.lookup_eq_some_iff _ _ _).mp hx).2
        rw [keys_extra, List.mem_singleton] at hxid
        rw [← hxid, hother r hr hrkey]
        rfl

/-- What a channel needs to outlive the deletion of another one. -/
def Store.apartFrom (s : Store) (key : Session.ChannelCacheKey) (channelId : Nat) :
    Prop :=
  key.channelId ≠ channelId ∧
    ∀ r ∈ s.message.rows, r.inChannel key = true →
      ∀ x, s.messageExtra.lookup r.id = some x → x.channelId ≠ channelId

theorem deleteChannelLocal_keeps
    {channelId : Nat} {res : Except StoreError (List Nat)}
    (hapart : s.apartFrom key channelId)
    (h : deleteChannelLocal channelId env s = (res, s')) :
    KeepsChannel key s s' := by
  rcases deleteChannelLocal_cases h with ⟨rfl, -⟩ | ⟨-, rfl⟩
  · exact KeepsChannel.refl key _
  · refine KeepsChannel.of_mem ?_ ?_
    · intro r hrkey
      unfold Store.withoutChannel
      dsimp only
      rw [Table.mem_deleteWhere]
      have hid : r.channelId = key.channelId := by
        rw [← MessageRow.inChannel_iff.mp hrkey]
        rfl
      exact ⟨fun hr => hr.1, fun hr => ⟨hr, by simpa [hid] using hapart.1⟩⟩
    · intro r hr hrkey
      unfold Store.withoutChannel
      dsimp only
      rw [Table.lookup_deleteWhere]
      refine filter_eq_of_forall ?_
      intro x hx
      simpa using hapart.2 r hr hrkey x hx

/-- An acknowledgement changes the row of the message and those of its server id. -/
theorem AckOutcome.keeps
    {messageId serverMessageId : Nat} {messageSeq : Int} {o : Table OutboxRow}
    {res : Except StoreError PUnit}
    (h : AckOutcome messageId serverMessageId messageSeq o env s res s')
    (hmessage : ¬ s.holds key messageId)
    (hserver : ∀ r ∈ s.message.rows, r.serverMessageId = some serverMessageId →
      r.inChannel key = false) :
    KeepsChannel key s s' := by
  cases h with
  | failed e he =>
      exact KeepsChannel.refl key s
  | acked row t hrow ht =>
      refine KeepsChannel.of_mem ?_ (fun _ _ _ => rfl)
      intro r hrkey
      have hkept : r ∈ (s.dedupe serverMessageId messageId).rows ↔
          r ∈ s.message.rows := by
        unfold Store.dedupe
        rw [Table.mem_deleteWhere]
        refine ⟨fun hr => hr.1, fun hr => ⟨hr, ?_⟩⟩
        have hne : (r.serverMessageId == some serverMessageId) = false := by
          rw [beq_eq_false_iff_ne]
          intro hsid
          rw [hserver r hr hsid] at hrkey
          cases hrkey
        rw [hne, Bool.false_and]
      constructor
      · intro hr
        rcases mem_of_update ht hr with ⟨r₀, hr₀, hid, rfl⟩ | ⟨hr, -⟩
        · exact absurd
            ⟨r₀, ((Table.mem_deleteWhere _ _ r₀).mp hr₀).1, hid, hrkey⟩ hmessage
        · exact hkept.mp hr
      · intro hr
        have hid : ¬ r.id = messageId := fun hid => hmessage ⟨r, hr, hid, hrkey⟩
        rw [(Table.rows_of_update ht).1, Table.mem_updatedRows]
        refine ⟨r, hkept.mpr hr, if_neg ?_⟩
        simpa using hid

/-- What the readers see of an extra does not have the pin. -/
theorem setMessagePinned_keeps
    {messageId : Nat} {isPinned : Bool} {res : Except StoreError PUnit}
    (h : setMessagePinned messageId isPinned env s = (res, s')) :
    KeepsChannel key s s' := by
  unfold setMessagePinned at h
  rw [Exec.bind_run] at h
  split at h
  · rename_i row s₁ hq
    obtain ⟨-, -, rfl⟩ := queryRow_ok.mp hq
    rw [nowMs_bind] at h
    cases res with
    | error e =>
        cases (exec_error h).1
        exact KeepsChannel.refl key _
    | ok u =>
        obtain ⟨-, rfl⟩ := exec_ok.mp h
        refine ⟨rfl, ?_⟩
        intro r hr hrkey
        dsimp only
        by_cases hid : r.id = messageId
        · rw [hid, lookup_upsertedExtra_self]
          cases s.messageExtra.lookup messageId with
          | none =>
              rfl
          | some x =>
              rfl
        · rw [lookup_upsertedExtra_of_ne _ _ _ _ _ _ hid]
  · rename_i e s₁ hq
    cases h
    cases (queryRow_error hq).1
    exact KeepsChannel.refl key _

theorem markMessageDelivered_keeps
    {serverMessageId : Nat} {deliveredAt : Int} {res : Except StoreError (Option Nat)}
    (hserver : ∀ r ∈ s.message.rows, r.serverMessageId = some serverMessageId →
      r.inChannel key = false)
    (h : markMessageDelivered serverMessageId deliveredAt env s = (res, s')) :
    KeepsChannel key s s' := by
  unfold markMessageDelivered at h
  rw [Exec.bind_run] at h
  split at h
  · rename_i found s₁ hq
    obtain ⟨-, hfound, rfl⟩ := query_ok.mp hq
    cases found with
    | none =>
        cases h
        exact KeepsChannel.refl key _
    | some row =>
        have hmem : row ∈ s.message.rows := List.mem_of_find?_eq_some hfound
        have hsid : row.serverMessageId = some serverMessageId := by
          simpa using List.find?_some hfound
        dsimp only at h
        rw [nowMs_bind, Exec.bind_run] at h
        split at h
        · rename_i already s₂ hw
          cases h
          obtain ⟨-, hbody⟩ := stmt_ok.mp hw
          cases hbody
          refine KeepsChannel.of_mem (fun _ _ => Iff.rfl) ?_
          intro r hr hrkey
          refine lookup_upsertedExtra_of_ne _ _ _ _ _ _ ?_
          intro hid
          have hrow := s.message.rowid_inj hr hmem hid
          rw [hrow, hserver row hmem hsid] at hrkey
          cases hrkey
        · rename_i e s₂ hw
          cases h
          cases (stmt_error hw).1
          exact KeepsChannel.refl key _
  · rename_i e s₁ hq
    cases h
    cases (query_error hq).1
    exact KeepsChannel.refl key _

end Rest

end PrivchatSdk
