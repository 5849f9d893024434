import PrivchatSdk.Lib.Run
import PrivchatSdk.MessageItems

/-!
# Which message a reaction, a mention or a reminder belongs to

The run follows one server message: it arrives, again and again, in any order
with the reaction, mention and reminder items that name it by its server id.
What they write refers to a row id, and nothing re-points it once it is written.

`links_reach_message` says that all rows end up at the row of the message when
each item's branch finds that row id: a reaction by a lookup in the channel of the
item, a mention and a reminder only when the row id happens to be the server id.
-/

namespace PrivchatSdk

open StatementExec RelTable Receive

section Events

/-- The message arrives, or an item that names it. -/
inductive LinkEvent where
  | message (input : UpsertRemoteMessageInput)
  | reaction (scope : Option String) (item : SyncEntityItem Json)
  | mention (scope : Option String) (item : SyncEntityItem Json)
  | reminder (scope : Option String) (item : SyncEntityItem Json)

/-- The message id of a reminder item. -/
def reminderMessageId (item : SyncEntityItem Json) : Nat :=
  (jsonGetU64 (itemPayload item) ["message_id", "server_message_id"]).getD 0

/-- The event is about the message with server id `S`. -/
def LinkEvent.Names (S : Nat) : LinkEvent → Prop
  | .message input => input.serverMessageId = S
  | .reaction _ item => rawMessageId item = S
  | .mention _ item => rawMessageId item = S
  | .reminder _ item => reminderMessageId item = S

variable (codec : Codec) (currentUid : Option Nat)

/-- The writes of one event. -/
def LinkEvent.apply : LinkEvent → StoreM PUnit
  | .message input => do
      let _ ← upsertRemoteMessageWithResult currentUid input
      pure .unit
  | .reaction scope item => codec.applyReactionItem scope item
  | .mention scope item => applyMentionItem scope item
  | .reminder scope item => codec.applyReminderItem scope item

/-- One event, at a time of the clock. -/
def linkStep (s : Store) (e : Int × LinkEvent) : Store :=
  (e.2.apply codec currentUid).after (.calm e.1) s

/-- What tells the attached rows of one message apart. -/
inductive AttachedKey where
  | reaction (uid : Nat) (emoji : String)
  | mention (userId : Nat)
  | reminder (reminderId : Nat)
  deriving DecidableEq, Repr

/-- A row of this kind is attached to the message of row id `m`. -/
def Store.HasAttached (s : Store) (m : Nat) : AttachedKey → Prop
  | .reaction uid emoji =>
      ∃ r ∈ s.messageReaction.rows, r.messageId = m ∧ r.uid = uid ∧
        r.emoji = emoji
  | .mention userId =>
      ∃ r ∈ s.mention.rows, r.messageId = m ∧ r.mentionedUserId = userId
  | .reminder reminderId =>
      ∃ r ∈ s.reminder.rows, r.messageId = m ∧ r.reminderId = reminderId

/-- The user and the emoji of a reaction item. -/
def Codec.reactionKey (item : SyncEntityItem Json) : Nat × String :=
  ((jsonGetU64 (itemPayload item) ["uid", "user_id", "sender_id"]).getD 0,
    (codec.jsonGetString (itemPayload item) ["emoji"]).getD "")

/-- The user of a mention item. -/
def mentionedUser (item : SyncEntityItem Json) : Nat :=
  (jsonGetU64 (itemPayload item)
    ["mentioned_user_id", "uid", "user_id"]).getD 0

/-- What an item attaches to the message that it names; the rest is skipped. -/
def LinkEvent.attaches : LinkEvent → Option AttachedKey
  | .message _ => none
  | .reaction scope item =>
      if itemChannelId scope (itemPayload item) = 0 ∨
          (codec.reactionKey item).1 = 0 ∨ (codec.reactionKey item).2 = "" then
        none
      else
        some (.reaction (codec.reactionKey item).1 (codec.reactionKey item).2)
  | .mention scope item =>
      if itemChannelId scope (itemPayload item) = 0 ∨ mentionedUser item = 0 then
        none
      else
        some (.mention (mentionedUser item))
  | .reminder _ item =>
      if itemReminderId item = 0 then
        none
      else
        some (.reminder (itemReminderId item))

end Events

section Conditions

variable (codec : Codec) (currentUid : Option Nat)

/-- An arrival finds the message in row `m`, or writes it there. -/
def Store.LandsIn
    (s : Store) (m : Nat) (input : UpsertRemoteMessageInput) : Prop :=
  match s.byServerId input.serverMessageId,
      s.byInputLocalId currentUid input with
  | some row, some localRow =>
      (if input.stale row = true then row.id else localRow.id) = m
  | some row, none => row.id = m
  | none, some localRow => input.stale localRow = false ∧ localRow.id = m
  | none, none => s.message.nextRowid = m

/-- The row id that a channel has for a server id, or the server id. -/
def Store.linkTarget
    (s : Store) (channelId : Nat) (channelType : Int) (sid : Nat) : Nat :=
  ((s.message.rows.find? (fun r =>
    r.serverMessageId == some sid && r.channelId == channelId &&
      r.channelType == channelType)).map (fun r => r.id)).getD sid

/--
The branch of the event ends up at row id `m`: the arrival lands there, and what
an item attaches goes there.
-/
def LinkEvent.Reaches (m : Nat) (s : Store) (e : LinkEvent) : Prop :=
  match e with
  | .message input => s.LandsIn currentUid m input
  | .reaction scope item =>
      (e.attaches codec).isSome = true →
        s.linkTarget (itemChannelId scope (itemPayload item))
          (itemChannelType scope (itemPayload item)) (rawMessageId item) = m
  | .mention _ item =>
      (e.attaches codec).isSome = true → rawMessageId item = m
  | .reminder _ item =>
      (e.attaches codec).isSome = true → reminderMessageId item = m

end Conditions

section Effects

/-- The attached rows that are not those of row id `m` were there before. -/
structure NoStray (m : Nat) (s s' : Store) : Prop where
  reaction : ∀ r ∈ s'.messageReaction.rows, r.messageId ≠ m →
    r ∈ s.messageReaction.rows
  mention : ∀ r ∈ s'.mention.rows, r.messageId ≠ m → r ∈ s.mention.rows
  reminder : ∀ r ∈ s'.reminder.rows, r.messageId ≠ m → r ∈ s.reminder.rows

theorem NoStray.refl (m : Nat) (s : Store) : NoStray m s s where
  reaction _ hr _ := hr
  mention _ hr _ := hr
  reminder _ hr _ := hr

theorem NoStray.trans
    {m : Nat} {s t u : Store} (h : NoStray m s t) (h' : NoStray m t u) :
    NoStray m s u where
  reaction r hr hne := h.reaction r (h'.reaction r hr hne) hne
  mention r hr hne := h.mention r (h'.mention r hr hne) hne
  reminder r hr hne := h.reminder r (h'.reminder r hr hne) hne

/-- What one event does to the attached rows: `key` is attached to `m`. -/
structure Attaches (m : Nat) (key : Option AttachedKey) (s s' : Store) :
    Prop where
  noStray : NoStray m s s'
  keys : ∀ k, s'.HasAttached m k ↔ s.HasAttached m k ∨ key = some k

/-- The attached rows are the same. -/
structure SameAttached (s s' : Store) : Prop where
  reaction : s'.messageReaction = s.messageReaction
  mention : s'.mention = s.mention
  reminder : s'.reminder = s.reminder

theorem SameAttached.attaches
    {s s' : Store} (h : SameAttached s s') (m : Nat) :
    Attaches m none s s' where
  noStray :=
    { reaction := by
        rw [h.reaction]
        exact fun _ hr _ => hr
      mention := by
        rw [h.mention]
        exact fun _ hr _ => hr
      reminder := by
        rw [h.reminder]
        exact fun _ hr _ => hr }
  keys k := by
    cases k with
    | reaction uid emoji =>
        simp [Store.HasAttached, h.reaction]
    | mention userId =>
        simp [Store.HasAttached, h.mention]
    | reminder reminderId =>
        simp [Store.HasAttached, h.reminder]

/-- A statement over the messages and their extras attaches nothing. -/
theorem sameAttached_afterUpsert
    (currentUid : Option Nat) (s : Store) (now : Int)
    (input : UpsertRemoteMessageInput) :
    SameAttached s (s.afterUpsert currentUid (.calm now) input) := by
  by_cases hpos : 0 < input.serverMessageId
  · have htake (t : Table MessageRow) (n : Nat) :
        SameAttached s (Store.takeRevoke { s with message := t } n input now) := by
      unfold Store.takeRevoke
      split
      · exact ⟨rfl, rfl, rfl⟩
      · exact ⟨rfl, rfl, rfl⟩
    rcases afterUpsert_calm currentUid s now hpos with
      ⟨row, -, -, hafter⟩ | ⟨base, t, row, -, -, hafter⟩ | ⟨t, -, -, -, hafter⟩
    · rw [hafter]
      exact ⟨rfl, rfl, rfl⟩
    · rw [hafter]
      exact htake t row.id
    · rw [hafter]
      exact htake t s.message.nextRowid
  · unfold Store.afterUpsert upsertRemoteMessageWithResult
    rw [if_pos (by omega)]
    exact ⟨rfl, rfl, rfl⟩

end Effects

section Landing

variable {currentUid : Option Nat} {input : UpsertRemoteMessageInput}

/-- After an arrival the message is stored in the row where it landed. -/
theorem Store.LandsIn.stored
    {s : Store} {m : Nat} (hpos : 0 < input.serverMessageId)
    (h : s.LandsIn currentUid m input) (now : Int) :
    ∃ row, (s.afterUpsert currentUid (.calm now) input).byServerId
        input.serverMessageId = some row ∧ row.id = m := by
  unfold Store.LandsIn at h
  rcases afterUpsert_calm currentUid s now hpos with
    ⟨row, hrow, hstale, hafter⟩ | ⟨base, t, row, htarget, hupdate, hafter⟩ |
      ⟨t, hnone, hnoneLocal, ht, hafter⟩
  · rw [hafter]
    rcases hrow with hrow | ⟨hnone, hlocal⟩
    · refine ⟨row, hrow, ?_⟩
      rw [hrow] at h
      split at h
      · rename_i row' localRow hfound hl
        cases hfound
        rwa [if_pos hstale] at h
      · rename_i row' hfound hl
        cases hfound
        exact h
      · rename_i hfound _
        cases hfound
      · rename_i hfound _
        cases hfound
    · rw [hnone, hlocal] at h
      rw [h.1] at hstale
      cases hstale
  · have hid : row.id = m := by
      cases htarget with
      | byServerId _ hrow hfresh hlocal =>
          rw [hrow] at h
          split at h
          · rename_i row' localRow hfound hl
            cases hfound
            rw [if_neg (by simp [hfresh])] at h
            rw [← hlocal localRow hl, h]
          · rename_i row' hfound hl
            cases hfound
            exact h
          · rename_i hfound _
            cases hfound
          · rename_i hfound _
            cases hfound
      | byLocalId _ hnone hrow _ =>
          rw [hnone, hrow] at h
          exact h.2
      | merge drop _ hdrop hfresh hkeep _ =>
          rw [hdrop, hkeep] at h
          dsimp only at h
          rwa [if_neg (by simp [hfresh])] at h
    refine ⟨input.overwrite now row, ?_, hid⟩
    refine (Store.byServerId_eq_some_iff _ hpos _).mpr ⟨?_, rfl⟩
    have hfound : t.byRowid row.id = some (input.overwrite now row) := by
      rw [byRowid_of_update hupdate, (htarget.byRowid hpos).1]
      simp
    rw [hafter, Store.takeRevoke_message]
    exact ((t.byRowid_eq_some_iff _ _).mp hfound).1
  · rw [hnone, hnoneLocal] at h
    obtain ⟨-, hrows, -⟩ := Table.rows_of_insert ht
    refine ⟨input.toRow now s.message.nextRowid, ?_, h⟩
    refine (Store.byServerId_eq_some_iff _ hpos _).mpr ⟨?_, rfl⟩
    rw [hafter, Store.takeRevoke_message]
    simp [hrows]

end Landing

section Items

variable {codec : Codec} {m : Nat} {key : Option AttachedKey} {s t u : Store}

theorem Attaches.trans_none
    (h : Attaches m key s t) (h' : Attaches m none t u) :
    Attaches m key s u where
  noStray := h.noStray.trans h'.noStray
  keys k := by
    rw [h'.keys, h.keys]
    simp

theorem hasAttached_reaction_iff (s : Store) (m uid : Nat) (emoji : String) :
    s.HasAttached m (.reaction uid emoji) ↔
      ∃ r ∈ s.messageReaction.rows, (m, uid, emoji) ∈ Record.keys r := by
  dsimp only [Store.HasAttached]
  refine exists_congr (fun r => and_congr_right (fun _ => ?_))
  rw [keys_reaction, List.mem_singleton, Prod.mk.injEq, Prod.mk.injEq]
  tauto

theorem hasAttached_mention_iff (s : Store) (m userId : Nat) :
    s.HasAttached m (.mention userId) ↔
      ∃ r ∈ s.mention.rows, (m, userId) ∈ Record.keys r := by
  dsimp only [Store.HasAttached]
  refine exists_congr (fun r => and_congr_right (fun _ => ?_))
  rw [keys_mention, List.mem_singleton, Prod.mk.injEq]
  tauto

/-- A reaction upsert attaches its key. -/
theorem attaches_upsertedReaction
    (s : Store) (input : UpsertMessageReactionInput) :
    Attaches input.messageId (some (.reaction input.uid input.emoji)) s
      { s with messageReaction :=
          upsertedReaction s.messageReaction input } where
  noStray :=
    { reaction := by
        intro r hr hne
        dsimp only [upsertedReaction] at hr
        refine Table.mem_of_mem_upsert hr ?_
        rw [keys_reaction, List.mem_singleton, Prod.mk.injEq]
        exact fun h => hne h.1.symm
      mention := fun _ hr _ => hr
      reminder := fun _ hr _ => hr }
  keys k := by
    cases k with
    | reaction uid emoji =>
        rw [hasAttached_reaction_iff, hasAttached_reaction_iff]
        refine Iff.trans (Table.exists_key_upsert_iff s.messageReaction
          (input.messageId, input.uid, input.emoji) input.toRow input.overwrite
          (fun _ => rfl) (fun _ => rfl) (fun _ => rfl) (fun _ => rfl) ?_ _)
          (or_congr_right ?_)
        · simp +contextual
        · simp [eq_comm]
    | mention userId =>
        simp [Store.HasAttached]
    | reminder reminderId =>
        simp [Store.HasAttached]

/-- A mention is attached, or was before. -/
theorem attaches_recordMention (input : MentionInput) (now : Int) (s : Store) :
    Attaches input.messageId (some (.mention input.mentionedUserId)) s
      ((recordMention input).after (.calm now) s) := by
  unfold Exec.after recordMention
  rw [exec_calm]
  refine { noStray := ⟨fun _ hr _ => hr, ?_, fun _ hr _ => hr⟩, keys := ?_ }
  · intro r hr hne
    dsimp only at hr
    refine Table.mem_of_mem_upsert hr ?_
    rw [keys_mention, List.mem_singleton, Prod.mk.injEq]
    exact fun h => hne h.1.symm
  · intro k
    cases k with
    | reaction uid emoji =>
        simp [Store.HasAttached]
    | mention userId =>
        rw [hasAttached_mention_iff, hasAttached_mention_iff]
        refine Iff.trans (Table.exists_key_upsert_iff s.mention
          (input.messageId, input.mentionedUserId) _ id
          (fun _ => rfl) (fun _ => rfl) (fun _ => rfl) (fun _ => rfl) ?_ _)
          (or_congr_right ?_)
        · simp +contextual
        · simp [eq_comm]
    | reminder reminderId =>
        simp [Store.HasAttached]

/-- Reading a mention attaches nothing. -/
theorem attaches_markMentionRead (m userId : Nat) (now : Int) (s : Store) :
    Attaches m none s ((markMentionRead m userId).after (.calm now) s) := by
  unfold Exec.after markMentionRead
  rw [exec_calm]
  refine { noStray := ⟨fun _ hr _ => hr, ?_, fun _ hr _ => hr⟩, keys := ?_ }
  · intro r hr hne
    obtain ⟨r₀, hr₀, rfl⟩ := (Table.mem_updatedRows _ _ _ _).mp hr
    split at hne
    · rename_i hp
      simp only [Bool.and_eq_true, beq_iff_eq] at hp
      exact absurd hp.1 hne
    · rename_i hp
      rwa [if_neg hp]
  · intro k
    cases k with
    | reaction uid emoji =>
        simp [Store.HasAttached]
    | mention user =>
        simp only [Store.HasAttached, reduceCtorEq, or_false]
        constructor
        · rintro ⟨r, hr, hm, hu⟩
          obtain ⟨r₀, hr₀, rfl⟩ := (Table.mem_updatedRows _ _ _ _).mp hr
          refine ⟨r₀, hr₀, ?_, ?_⟩
          · rw [← hm]
            split <;> rfl
          · rw [← hu]
            split <;> rfl
        · rintro ⟨r, hr, hm, hu⟩
          refine ⟨_, (Table.mem_updatedRows _ _ _ _).mpr ⟨r, hr, rfl⟩, ?_⟩
          split
          · exact ⟨hm, hu⟩
          · exact ⟨hm, hu⟩
    | reminder reminderId =>
        simp [Store.HasAttached]

/-- The row of a reminder takes the message id of the input. -/
theorem upsertReminder_row
    (input : ReminderRow) (now : Int) (s : Store) :
    ∀ r ∈ ((upsertReminder input).after (.calm now) s).reminder.rows,
      r ∈ s.reminder.rows ∧ r.reminderId ≠ input.reminderId ∨
        r.messageId = input.messageId ∧ r.reminderId = input.reminderId := by
  unfold Exec.after upsertReminder
  rw [exec_calm]
  intro r hr
  rcases (Table.mem_upsert r).mp hr with ⟨hr, hkey⟩ | rfl
  · refine Or.inl ⟨hr, fun hid => hkey ?_⟩
    exact List.mem_singleton.mpr hid.symm
  · refine Or.inr ?_
    cases hl : s.reminder.lookup input.reminderId with
    | none =>
        exact ⟨rfl, rfl⟩
    | some found =>
        obtain ⟨-, hkey⟩ := (Table.lookup_eq_some_iff _ _ _).mp hl
        exact ⟨rfl, (List.mem_singleton.mp hkey).symm⟩

/-- A reminder is attached, taken from its former message where it had one. -/
theorem attaches_upsertReminder (input : ReminderRow) (now : Int) (s : Store) :
    Attaches input.messageId (some (.reminder input.reminderId)) s
      ((upsertReminder input).after (.calm now) s) := by
  have hrows := upsertReminder_row input now s
  refine { noStray := ⟨fun _ hr _ => hr, fun _ hr _ => hr, ?_⟩, keys := ?_ }
  · intro r hr hne
    rcases hrows r hr with ⟨hr, -⟩ | ⟨hm, -⟩
    · exact hr
    · exact absurd hm hne
  · intro k
    cases k with
    | reaction uid emoji =>
        exact (or_iff_left (by simp)).symm
    | mention userId =>
        exact (or_iff_left (by simp)).symm
    | reminder reminderId =>
        simp only [Store.HasAttached, Option.some.injEq,
          AttachedKey.reminder.injEq]
        constructor
        · rintro ⟨r, hr, hm, hid⟩
          rcases hrows r hr with ⟨hr, -⟩ | ⟨-, hself⟩
          · exact Or.inl ⟨r, hr, hm, hid⟩
          · exact Or.inr (hself.symm.trans hid)
        · intro h
          by_cases hself : input.reminderId = reminderId
          · refine ⟨_, (Table.mem_upsert _).mpr (Or.inr rfl), ?_⟩
            cases hl : s.reminder.lookup input.reminderId with
            | none =>
                exact ⟨rfl, hself⟩
            | some found =>
                obtain ⟨-, hkey⟩ := (Table.lookup_eq_some_iff _ _ _).mp hl
                exact ⟨rfl, (List.mem_singleton.mp hkey).symm.trans hself⟩
          · obtain ⟨r, hr, hm, hid⟩ := h.resolve_right hself
            refine ⟨r, (Table.mem_upsert r).mpr (Or.inl ⟨hr, ?_⟩), hm, hid⟩
            intro hkey
            exact hself ((List.mem_singleton.mp hkey).trans hid)

/-- Finishing a reminder of the message attaches nothing. -/
theorem attaches_markReminderDone
    {m reminderId : Nat} {s : Store} (done : Bool) (now : Int)
    (hrow : ∀ r ∈ s.reminder.rows, r.reminderId = reminderId →
      r.messageId = m) :
    Attaches m none s
      ((markReminderDone reminderId done).after (.calm now) s) := by
  unfold Exec.after markReminderDone
  rw [exec_calm]
  refine { noStray := ⟨fun _ hr _ => hr, fun _ hr _ => hr, ?_⟩, keys := ?_ }
  · intro r hr hne
    obtain ⟨r₀, hr₀, rfl⟩ := (Table.mem_updatedRows _ _ _ _).mp hr
    split at hne
    · rename_i hp
      exact absurd (hrow r₀ hr₀ (by simpa using hp)) hne
    · rename_i hp
      rwa [if_neg hp]
  · intro k
    cases k with
    | reaction uid emoji =>
        simp [Store.HasAttached]
    | mention userId =>
        simp [Store.HasAttached]
    | reminder other =>
        simp only [Store.HasAttached, reduceCtorEq, or_false]
        constructor
        · rintro ⟨r, hr, hm, hreminder⟩
          obtain ⟨r₀, hr₀, rfl⟩ := (Table.mem_updatedRows _ _ _ _).mp hr
          refine ⟨r₀, hr₀, ?_, ?_⟩
          · rw [← hm]
            split <;> rfl
          · rw [← hreminder]
            split <;> rfl
        · rintro ⟨r, hr, hm, hreminder⟩
          refine ⟨_, (Table.mem_updatedRows _ _ _ _).mpr ⟨r, hr, rfl⟩, ?_⟩
          split
          · exact ⟨hm, hreminder⟩
          · exact ⟨hm, hreminder⟩

end Items

section Steps

variable {codec : Codec} {currentUid : Option Nat} {S m : Nat}

theorem attaches_refl (m : Nat) (s : Store) : Attaches m none s s :=
  SameAttached.attaches ⟨rfl, rfl, rfl⟩ m

/-- The lookup of a channel answers with the row id or with the server id. -/
theorem resolveMessageId_calm
    {channelId : Nat} (hpos : 0 < channelId) (channelType : Int) (raw : Nat)
    (now : Int) (s : Store) :
    resolveMessageId channelId channelType raw (.calm now) s =
      (.ok (s.linkTarget channelId channelType raw), s) := by
  unfold resolveMessageId getMessageIdByServerMessageId
  rw [if_pos hpos, Exec.bind_run, query_calm]
  rfl

theorem attaches_applyReactionItem
    {scope : Option String} {item : SyncEntityItem Json} {now : Int} {s : Store}
    (hm : 0 < m) (hpos : 0 < rawMessageId item)
    (hreach : LinkEvent.Reaches codec currentUid m s (.reaction scope item)) :
    Attaches m (LinkEvent.attaches codec (.reaction scope item)) s
      ((codec.applyReactionItem scope item).after (.calm now) s) := by
  unfold Exec.after Codec.applyReactionItem
  rw [Exec.bind_run, if_pos hpos]
  by_cases hchannel : itemChannelId scope (itemPayload item) = 0
  · have hnone : LinkEvent.attaches codec (.reaction scope item) = none :=
      if_pos (Or.inl hchannel)
    unfold resolveMessageId
    rw [if_neg (by omega), Exec.pure_run, hnone]
    dsimp only
    rw [if_pos (Or.inr (Or.inl hchannel))]
    exact attaches_refl m s
  · rw [resolveMessageId_calm (Nat.pos_of_ne_zero hchannel)]
    dsimp only
    by_cases hskip : (jsonGetU64 (itemPayload item)
          ["uid", "user_id", "sender_id"]).getD 0 = 0 ∨
        (codec.jsonGetString (itemPayload item) ["emoji"]).getD "" = ""
    · have hnone : LinkEvent.attaches codec (.reaction scope item) = none :=
        if_pos (Or.inr hskip)
      rw [if_pos (Or.inr (Or.inr hskip)), hnone]
      exact attaches_refl m s
    · have hsome : LinkEvent.attaches codec (.reaction scope item) =
          some (.reaction (codec.reactionKey item).1
            (codec.reactionKey item).2) :=
        if_neg (not_or.mpr ⟨hchannel, hskip⟩)
      have htarget := hreach (by rw [hsome]; rfl)
      rw [htarget, hsome, if_neg (not_or.mpr ⟨by omega,
        not_or.mpr ⟨hchannel, hskip⟩⟩), nowMs_bind]
      unfold upsertMessageReaction
      rw [exec_calm]
      refine attaches_upsertedReaction s
        { messageId := m, uid := _, emoji := _, channelId := _, channelType := _,
          name := _, seq := _, isDeleted := _, createdAt := _ }

theorem attaches_applyMentionItem
    {scope : Option String} {item : SyncEntityItem Json} {now : Int} {s : Store}
    (hm : 0 < m)
    (hreach : LinkEvent.Reaches codec currentUid m s (.mention scope item)) :
    Attaches m (LinkEvent.attaches codec (.mention scope item)) s
      ((applyMentionItem scope item).after (.calm now) s) := by
  unfold Exec.after applyMentionItem
  by_cases hskip : itemChannelId scope (itemPayload item) = 0 ∨
      (jsonGetU64 (itemPayload item)
        ["mentioned_user_id", "uid", "user_id"]).getD 0 = 0
  · have hnone : LinkEvent.attaches codec (.mention scope item) = none :=
      if_pos hskip
    rw [if_pos (Or.inr hskip), hnone]
    exact attaches_refl m s
  · have hsome : LinkEvent.attaches codec (.mention scope item) =
        some (.mention (mentionedUser item)) := if_neg hskip
    have hraw := hreach (by rw [hsome]; rfl)
    rw [hraw, hsome, if_neg (not_or.mpr ⟨by omega, hskip⟩), nowMs_bind]
    have hrecord := attaches_recordMention
      { messageId := m
        channelId := itemChannelId scope (itemPayload item)
        channelType := itemChannelType scope (itemPayload item)
        mentionedUserId := mentionedUser item
        senderId := (jsonGetU64 (itemPayload item)
          ["sender_id", "from_uid", "from", "operator_id"]).getD 0
        isMentionAll :=
          (jsonGetBool (itemPayload item) ["is_mention_all"]).getD false
        createdAt := (jsonGetI64 (itemPayload item) ["created_at"]).getD now }
      now s
    unfold Exec.after recordMention at hrecord
    unfold recordMention
    rw [exec_calm] at hrecord
    rw [Exec.bind_run, exec_calm]
    refine hrecord.trans_none ?_
    cases (jsonGetBool (itemPayload item) ["is_read"]).getD false with
    | true =>
        exact attaches_markMentionRead m _ now _
    | false =>
        exact attaches_refl m _

theorem attaches_applyReminderItem
    {scope : Option String} {item : SyncEntityItem Json} {now : Int} {s : Store}
    (hreach : LinkEvent.Reaches codec currentUid m s (.reminder scope item)) :
    Attaches m (LinkEvent.attaches codec (.reminder scope item)) s
      ((codec.applyReminderItem scope item).after (.calm now) s) := by
  unfold Exec.after Codec.applyReminderItem
  by_cases hskip : itemReminderId item = 0
  · have hnone : LinkEvent.attaches codec (.reminder scope item) = none :=
      if_pos hskip
    rw [if_pos hskip, hnone]
    exact attaches_refl m s
  · have hsome : LinkEvent.attaches codec (.reminder scope item) =
        some (.reminder (itemReminderId item)) := if_neg hskip
    have htarget : (codec.reminderInput scope item
        (itemReminderId item)).messageId = m := hreach (by rw [hsome]; rfl)
    have hupsert := attaches_upsertReminder
      (codec.reminderInput scope item (itemReminderId item)) now s
    rw [htarget] at hupsert
    have hself : ∀ r ∈ ((upsertReminder (codec.reminderInput scope item
          (itemReminderId item))).after (.calm now) s).reminder.rows,
        r.reminderId = itemReminderId item → r.messageId = m := by
      intro r hr hid
      rcases upsertReminder_row _ now s r hr with ⟨-, hne⟩ | ⟨hm, -⟩
      · exact absurd hid hne
      · exact hm.trans htarget
    rw [if_neg hskip, hsome, Exec.bind_run]
    unfold Exec.after upsertReminder at hupsert hself
    unfold upsertReminder
    rw [exec_calm] at hupsert hself
    rw [exec_calm]
    refine hupsert.trans_none ?_
    cases item.deleted with
    | true =>
        exact attaches_markReminderDone true now hself
    | false =>
        exact attaches_refl m _

/-- An arrival is an upsert. -/
theorem linkStep_message (s : Store) (now : Int) (input : UpsertRemoteMessageInput) :
    linkStep codec currentUid s (now, .message input) =
      s.afterUpsert currentUid (.calm now) input := by
  unfold linkStep LinkEvent.apply Store.afterUpsert Exec.after
  dsimp only
  rw [Exec.bind_run]
  split
  · rename_i r s₁ hrun
    rw [hrun]
    rfl
  · rename_i e s₁ hrun
    rw [hrun]

/-- A step that reaches the message attaches what the event says. -/
theorem attaches_linkStep
    {s : Store} {e : Int × LinkEvent} (hS : 0 < S) (hm : 0 < m)
    (hnames : e.2.Names S) (hreach : e.2.Reaches codec currentUid m s) :
    Attaches m (e.2.attaches codec) s (linkStep codec currentUid s e) := by
  obtain ⟨now, e⟩ := e
  cases e with
  | message input =>
      rw [linkStep_message]
      exact (sameAttached_afterUpsert currentUid s now input).attaches m
  | reaction scope item =>
      exact attaches_applyReactionItem hm (hnames ▸ hS) hreach
  | mention scope item =>
      exact attaches_applyMentionItem hm hreach
  | reminder scope item =>
      exact attaches_applyReminderItem hreach

/-- An item leaves the messages alone. -/
theorem linkStep_item
    {e : LinkEvent} (he : ∀ input, e ≠ .message input) (now : Int) (s : Store) :
    (linkStep codec currentUid s (now, e)).message = s.message := by
  have hrefl : ∀ s : Store, s.message = s.message := fun _ => rfl
  have htrans : ∀ s t u : Store, t.message = s.message →
      u.message = t.message → u.message = s.message :=
    fun _ _ _ h h' => h'.trans h
  have hpure : ∀ u, (pure u : StoreM PUnit).Relates
      (fun s s' => s'.message = s.message) := Exec.relates_pure hrefl
  suffices hrel : (e.apply codec currentUid).Relates
      (fun s s' => s'.message = s.message) from hrel (.calm now) s
  cases e with
  | message input =>
      exact absurd rfl (he input)
  | reaction scope item =>
      refine Exec.Relates.bind htrans ?_ (fun messageId => ?_)
      · refine Exec.Relates.ite ?_ (Exec.relates_pure hrefl _)
        refine Exec.Relates.ite ?_ (Exec.relates_pure hrefl _)
        exact Exec.Relates.bind htrans (relates_query hrefl _ _)
          (fun found => Exec.relates_pure hrefl _)
      · refine Exec.Relates.ite (hpure _) ?_
        exact Exec.Relates.bind htrans (relates_nowMs hrefl)
          (fun now => relates_exec hrefl _ hrefl)
  | mention scope item =>
      refine Exec.Relates.ite (hpure _) ?_
      refine Exec.Relates.bind htrans (relates_nowMs hrefl) (fun now => ?_)
      refine Exec.Relates.bind htrans (relates_exec hrefl _ hrefl)
        (fun _ => ?_)
      refine Exec.Relates.ite ?_ (hpure _)
      exact Exec.Relates.bind htrans (relates_exec hrefl _ hrefl).attempt
        (fun _ => hpure _)
  | reminder scope item =>
      refine Exec.Relates.ite (hpure _) ?_
      refine Exec.Relates.bind htrans (relates_exec hrefl _ hrefl)
        (fun _ => ?_)
      refine Exec.Relates.ite ?_ (hpure _)
      exact Exec.Relates.bind htrans (relates_exec hrefl _ hrefl).attempt
        (fun _ => hpure _)

end Steps

section Runs

variable (codec : Codec) (currentUid : Option Nat) {S m : Nat}

/-- The message is stored in row `m`. -/
def StoredAt (S m : Nat) (s : Store) : Prop :=
  ∃ row, s.byServerId S = some row ∧ row.id = m

variable {codec currentUid}

theorem storedAt_linkStep
    {s : Store} {e : Int × LinkEvent} (hS : 0 < S) (hnames : e.2.Names S)
    (hreach : e.2.Reaches codec currentUid m s)
    (hstored : (∃ input, e.2 = .message input) ∨ StoredAt S m s) :
    StoredAt S m (linkStep codec currentUid s e) := by
  obtain ⟨now, e⟩ := e
  by_cases harrival : ∃ input, e = .message input
  · obtain ⟨input, rfl⟩ := harrival
    obtain rfl : input.serverMessageId = S := hnames
    rw [linkStep_message]
    exact Store.LandsIn.stored hS hreach now
  · obtain ⟨row, hrow, hid⟩ := hstored.resolve_left harrival
    refine ⟨row, ?_, hid⟩
    have hsame := @linkStep_item codec currentUid _
      (fun input h => harrival ⟨input, h⟩) now s
    unfold Store.byServerId
    rw [hsame]
    exact hrow

variable (codec currentUid)

/--
When the branch of every event reaches row `m`, the message ends up there with
exactly the rows of the items that name it, and no other message gets one.
-/
theorem links_reach_message
    (hS : 0 < S) (hm : 0 < m) (s₀ : Store) (events : List (Int × LinkEvent))
    (hnames : ∀ e ∈ events, e.2.Names S)
    (hreach : EventRun.Guarded (linkStep codec currentUid)
      (fun s e => e.2.Reaches codec currentUid m s) s₀ events) :
    let s := EventRun.run (linkStep codec currentUid) s₀ events
    ((∃ e ∈ events, ∃ input, e.2 = .message input) ∨ StoredAt S m s₀ →
        StoredAt S m s) ∧
      NoStray m s₀ s ∧
      ∀ k, s.HasAttached m k ↔
        s₀.HasAttached m k ∨ ∃ e ∈ events, e.2.attaches codec = some k := by
  induction events generalizing s₀ with
  | nil =>
      refine ⟨fun h => h.resolve_left (by simp), .refl m s₀, fun k => ?_⟩
      simp
  | cons e events ih =>
      obtain ⟨hstep, hrest⟩ := hreach
      have hname := hnames e List.mem_cons_self
      have hattach := attaches_linkStep hS hm hname hstep
      obtain ⟨hstored, hstray, hkeys⟩ := ih _
        (fun e he => hnames e (List.mem_cons_of_mem _ he)) hrest
      refine ⟨fun h => hstored ?_, hattach.noStray.trans hstray, fun k => ?_⟩
      · rcases h with ⟨e', he', harrival⟩ | h
        · rcases List.mem_cons.mp he' with rfl | he'
          · exact Or.inr (storedAt_linkStep hS hname hstep (Or.inl harrival))
          · exact Or.inl ⟨e', he', harrival⟩
        · exact Or.inr (storedAt_linkStep hS hname hstep (Or.inr h))
      · rw [EventRun.run_cons, hkeys, hattach.keys, or_assoc]
        simp only [List.mem_cons, exists_eq_or_imp]

end Runs

section Sample

/-- A mention of user 7 in a message of channel 10. -/
def sampleMention (sid : Nat) : LinkEvent :=
  .mention none (sampleItem sid "uid" (.int 7))

/-- Message 2 takes row 2, so that its mention is found there. -/
theorem links_reach_message_same_id :
    let s := EventRun.run (linkStep sampleCodec none) sampleStore
      [(2, .message (.text 2 0 10 3 6 "hello")), (3, sampleMention 2)]
    StoredAt 2 2 s ∧ s.HasAttached 2 (.mention 7) := by
  have hlands : sampleStore.LandsIn none 2 (.text 2 0 10 3 6 "hello") := by
    have hnone : sampleStore.byServerId 2 = none := by
      decide +kernel
    unfold Store.LandsIn
    rw [show (UpsertRemoteMessageInput.text 2 0 10 3 6 "hello").serverMessageId =
      2 from rfl, hnone]
    show sampleStore.message.nextRowid = 2
    decide +kernel
  have hlinks := links_reach_message sampleCodec none (S := 2) (m := 2)
    (by decide) (by decide) sampleStore
    [(2, .message (.text 2 0 10 3 6 "hello")), (3, sampleMention 2)]
    (by
      intro e he
      rcases List.mem_cons.mp he with rfl | he
      · rfl
      · rw [List.mem_singleton.mp he]
        show rawMessageId _ = 2
        decide +kernel)
    ⟨hlands, fun _ => by
      show rawMessageId _ = 2
      decide +kernel, trivial⟩
  refine ⟨hlinks.1 (Or.inl ⟨_, List.mem_cons_self, _, rfl⟩),
    (hlinks.2.2 _).mpr (Or.inr ⟨_, List.mem_cons_of_mem _ List.mem_cons_self, ?_⟩)⟩
  decide +kernel

/-- Message 1 arrives and takes row 2, then its mention. -/
def mentionAfterMessage : Store :=
  EventRun.run (linkStep sampleCodec none) sampleStore
    [(2, .message (.text 1 0 10 3 6 "hello")), (3, sampleMention 1)]

/-- A reaction to message 900, then the message, which takes row 2. -/
def reactionBeforeMessage : Store :=
  EventRun.run (linkStep sampleCodec none) sampleStore
    [(2, .reaction none
      { entityId := "item"
        version := 1
        deleted := false
        payload := some (.obj [("message_id", .int 900),
          ("channel_id", .int 10), ("uid", .int 7), ("emoji", .str "ok")]) }),
      (3, .message (.text 900 0 10 3 6 "hello"))]

/--
The mention of message 1 goes to row 1, which is message 901; the reaction that
comes before its message stays with the server id.
-/
theorem links_miss_message :
    (mentionAfterMessage.byServerId 1).map (fun r => r.id) = some 2 ∧
      (mentionAfterMessage.byServerId 901).map (fun r => r.id) = some 1 ∧
      mentionAfterMessage.mention.rows.map (fun r => r.messageId) = [1] ∧
      (reactionBeforeMessage.byServerId 900).map (fun r => r.id) = some 2 ∧
      reactionBeforeMessage.messageReaction.rows.map (fun r => r.messageId) =
        [900] := by
  decide +kernel

end Sample

end PrivchatSdk
