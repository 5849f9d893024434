import PrivchatSdk.Lib.Run
import PrivchatSdk.MessageContent
import PrivchatSdk.Store.Upsert

/-!
# What a text message shows through edits, replays and a revoke

An edit and a revoke write the content column only, a replay of the original
message writes content and extra, and the projection looks into both.  The run
follows one server message from any row that a source created for it.

`Reading.KeepsText` is the condition under which the projection shows the latest
edit and, after a revoke, nothing of the message (`projection_follows_edits`).
A message whose extra repeats its text shows the original for ever
(`edit_hidden_by_extra`, `received_object_hides_content`).
-/

namespace PrivchatSdk

open StatementExec RelTable

section Rows

/-- Every row of the server message has type, content and extra as `P` says. -/
def RowSays (S : Nat) (P : Int → String → String → Prop) (s : Store) : Prop :=
  ∀ row ∈ s.message.rows, row.serverMessageId = some S →
    P row.messageType row.content row.extra

variable {S : Nat} {P Q : Int → String → String → Prop} {s : Store} {now : Int}

theorem RowSays.imp
    (h : RowSays S P s) (hPQ : ∀ t c e, P t c e → Q t c e) : RowSays S Q s :=
  fun row hrow hsid => hPQ _ _ _ (h row hrow hsid)

/-- A message row without statement failures: columns are written. -/
theorem rowSays_modify
    (h : RowSays S P s) {p : MessageRow → Bool} {f : MessageRow → MessageRow}
    {hid hkeys} {s' : Store}
    (hmsg : s'.message = s.message.modify p f hid hkeys)
    (hsid : ∀ r, (f r).serverMessageId = r.serverMessageId)
    (hhit : ∀ r ∈ s.message.rows, r.serverMessageId = some S → p r = true)
    (hf : ∀ r, P r.messageType r.content r.extra →
      Q (f r).messageType (f r).content (f r).extra) :
    RowSays S Q s' := by
  intro row hrow hrowS
  rw [hmsg] at hrow
  obtain ⟨r, hr, rfl⟩ := (Table.mem_updatedRows _ _ _ _).mp hrow
  have hrS : r.serverMessageId = some S := by
    split at hrowS
    · rw [hsid] at hrowS
      exact hrowS
    · exact hrowS
  rw [if_pos (hhit r hr hrS)]
  exact hf r (h r hr hrS)

/-- The row of the server message is found under its row id. -/
theorem row_of_byServerId
    (hpos : 0 < S) {row : MessageRow} (hrow : s.byServerId S = some row) :
    s.message.byRowid row.id = some row ∧
      ∀ r ∈ s.message.rows, r.serverMessageId = some S →
        (r.id == row.id) = true := by
  obtain ⟨hmem, -⟩ := (s.byServerId_eq_some_iff hpos row).mp hrow
  refine ⟨(s.message.byRowid_eq_some_iff _ _).mpr ⟨hmem, rfl⟩, ?_⟩
  intro r hr hrS
  simp [eq_of_byServerId hpos hrow hr hrS]

/-- A statement over the extras leaves the messages, whatever it ends in. -/
theorem exec_message
    (context : String) (f : Store → Store) (hf : ∀ s, (f s).message = s.message)
    (env : Env) (s : Store) :
    (exec context f env s).2.message = s.message := by
  cases h : exec context f env s with
  | mk res s' =>
  cases res with
  | ok u =>
      obtain ⟨-, rfl⟩ := exec_ok.mp h
      exact hf s
  | error e =>
      rw [(exec_error h).1]

/-- An edit of a stored message writes its content. -/
theorem editMessage_calm
    {m : Nat} {row : MessageRow} (hrow : s.message.byRowid m = some row)
    (content : String) (editedAt : Int) :
    ((editMessage m content editedAt).after (.calm now) s).message =
      s.message.modify (fun r => r.id == m)
        (fun r => { r with content := content, updatedAt := now })
        (fun _ => rfl) (fun _ => rfl) := by
  unfold Exec.after editMessage
  rw [nowMs_bind, Exec.bind_run, modifyExisting_calm hrow]
  dsimp only
  rw [Exec.bind_run]
  split
  · rename_i found s₁ hq
    obtain ⟨-, -, rfl⟩ := queryRow_ok.mp hq
    refine exec_message _ _ (fun s => ?_) _ _
    rfl
  · rename_i e s₁ hq
    rw [(queryRow_error hq).1]
    rfl

/-- A revoke item for a stored message writes the placeholder. -/
theorem setMessageRevoke_calm
    {m : Nat} {row : MessageRow} (hrow : s.message.byRowid m = some row)
    (revoker : Option Nat) :
    ((setMessageRevoke m true revoker).after (.calm now) s).message =
      s.message.modify (fun r => r.id == m) (MessageRow.tombstone now)
        (fun _ => rfl) (fun _ => rfl) := by
  have hrun : ∃ extra, setMessageRevoke m true revoker (.calm now) s =
      (.ok .unit,
        { s with
          messageExtra := extra
          message := s.message.modify (fun r => r.id == m)
            (MessageRow.tombstone now) (fun _ => rfl) (fun _ => rfl) }) := by
    refine ⟨upsertedExtra s.messageExtra m row.channelId row.channelType
      (revokeWrite true revoker now) (revokeWrite true revoker now), ?_⟩
    refine Exec.bind_ok.mpr ⟨some row, s, query_ok.mpr ⟨rfl, hrow, rfl⟩, ?_⟩
    refine Exec.bind_ok.mpr ⟨now, s, rfl, ?_⟩
    refine Exec.bind_ok.mpr ⟨.unit, _, exec_ok.mpr ⟨rfl, rfl⟩, ?_⟩
    exact modifyExisting_calm hrow
  obtain ⟨extra, hrun⟩ := hrun
  unfold Exec.after
  rw [hrun]

/-- A revoke by server id writes the placeholder into the row that has it. -/
theorem setMessageRevokeByServerMessageId_calm
    (S : Nat) (s : Store) (now : Int) (revoker : Option Nat) :
    ((setMessageRevokeByServerMessageId S true revoker).after (.calm now)
        s).message =
      s.message.modify (fun r => r.serverMessageId == some S)
        (MessageRow.tombstone now) (fun _ => rfl) (fun _ => rfl) := by
  have hmodify : updateRevokedByServerId S true now (.calm now) s =
      (.ok (s.message.rows.countP (fun r => r.serverMessageId == some S)),
        { s with
          message := s.message.modify (fun r => r.serverMessageId == some S)
            (MessageRow.tombstone now) (fun _ => rfl) (fun _ => rfl) }) := by
    unfold updateRevokedByServerId
    rw [if_pos rfl]
    exact modifyMessage_ok.mpr ⟨rfl, rfl, rfl⟩
  unfold Exec.after setMessageRevokeByServerMessageId
  rw [nowMs_bind, Exec.bind_run]
  have hnow : (Env.calm now).now = now := rfl
  rw [hnow, hmodify]
  dsimp only
  split
  · rfl
  rw [Exec.bind_run]
  split
  · rename_i row s₁ hq
    obtain ⟨-, -, rfl⟩ := queryRow_ok.mp hq
    rw [Exec.bind_run]
    split
    · rename_i u s₂ hflag
      obtain ⟨-, rfl⟩ := exec_ok.mp hflag
      rfl
    · rename_i e s₂ hflag
      rw [(exec_error hflag).1]
  · rename_i e s₁ hq
    rw [(queryRow_error hq).1]

end Rows

section System

variable (codec : Codec) (S : Nat) (original : String)

/-- A remote copy that replays the original of the message. -/
structure Replay where
  input : UpsertRemoteMessageInput
  serverMessageId : input.serverMessageId = S
  messageType : input.messageType = 0
  revoked : input.revoked = false
  text : codec.text input.content = original

/-- What happens to a stored text message; the target is looked up by server id. -/
inductive ContentEvent where
  | edit (content : String) (editedAt : Int)
  | replay (currentUid : Option Nat) (replay : Replay codec S original)
  | revokeItem (revoker : Option Nat)
  | revokePush (revoker : Option Nat)

/-- The store, the edits so far, and whether the message was revoked. -/
structure Reading where
  store : Store
  edits : List (String × Int)
  revoked : Bool

/-- The edit with the largest `edited_at`, the last of several. -/
def latestEdit : List (String × Int) → Option (String × Int)
  | [] => none
  | e :: edits =>
      match latestEdit edits with
      | none => some e
      | some later => if e.2 ≤ later.2 then some later else some e

/-- The text that a reader should see after the edits. -/
def currentText (edits : List (String × Int)) : String :=
  ((latestEdit edits).map (fun e => codec.text e.1)).getD original

variable {codec S original}

/-- Take one event at a time of the local clock. -/
def Reading.step (w : Reading) :
    Int × ContentEvent codec S original → Reading
  | (now, .edit content editedAt) =>
      match w.store.byServerId S with
      | none => w
      | some row =>
          { w with
            store :=
              (editMessage row.id content editedAt).after (.calm now) w.store
            edits := w.edits ++ [(content, editedAt)] }
  | (now, .replay currentUid replay) =>
      { w with store := w.store.afterUpsert currentUid (.calm now) replay.input }
  | (now, .revokeItem revoker) =>
      match w.store.byServerId S with
      | none => w
      | some row =>
          { w with
            store := (setMessageRevoke row.id true revoker).after (.calm now)
              w.store
            revoked := true }
  | (now, .revokePush revoker) =>
      { w with
        store := (setMessageRevokeByServerMessageId S true revoker).after
          (.calm now) w.store
        revoked := w.revoked || (w.store.byServerId S).isSome }

/-- The condition under which the projection keeps following the message. -/
def Reading.KeepsText (w : Reading) :
    Int × ContentEvent codec S original → Prop
  | (_, .edit content editedAt) =>
      w.revoked = false ∧
        (∀ e ∈ w.edits, e.2 ≤ editedAt) ∧
        ∀ row, w.store.byServerId S = some row →
          codec.SaysText content row.extra
  | (_, .replay _ replay) =>
      w.revoked = false ∧ currentText codec original w.edits = original ∧
        codec.SaysText replay.input.content replay.input.extra
  | (_, .revokeItem _) =>
      ∀ row, w.store.byServerId S = some row → codec.SilentExtra row.extra
  | (_, .revokePush _) =>
      ∀ row, w.store.byServerId S = some row → codec.SilentExtra row.extra

/-- What the row of the message has to hold. -/
def Reading.RowOk
    (codec : Codec) (original : String) (w : Reading)
    (messageType : Int) (content extra : String) : Prop :=
  messageType = 0 ∧
    if w.revoked then
      content = revokedContent ∧ codec.SilentExtra extra
    else
      codec.SaysText content extra ∧
        codec.text content = currentText codec original w.edits

end System

section Edits

variable {codec : Codec} {S : Nat} {original : String}

/-- The latest edit is one of the edits, and none is later. -/
theorem latestEdit_spec
    {edits : List (String × Int)} {b : String × Int}
    (h : latestEdit edits = some b) :
    b ∈ edits ∧ ∀ e ∈ edits, e.2 ≤ b.2 := by
  induction edits generalizing b with
  | nil =>
      cases h
  | cons e edits ih =>
      rw [latestEdit] at h
      cases hlater : latestEdit edits with
      | none =>
          rw [hlater] at h
          cases h
          have hempty : edits = [] := by
            cases edits with
            | nil =>
                rfl
            | cons e' edits =>
                rw [latestEdit] at hlater
                split at hlater
                · cases hlater
                · split at hlater
                  · cases hlater
                  · cases hlater
          simp [hempty]
      | some later =>
          obtain ⟨hmem, hmax⟩ := ih hlater
          rw [hlater] at h
          simp only at h
          split at h
          · rename_i hle
            cases h
            exact ⟨List.mem_cons_of_mem _ hmem, List.forall_mem_cons.mpr
              ⟨hle, hmax⟩⟩
          · rename_i hlt
            cases h
            refine ⟨List.mem_cons_self, List.forall_mem_cons.mpr
              ⟨Int.le_refl _, fun x hx => ?_⟩⟩
            have hbefore := hmax x hx
            omega

/-- An edit that is not older than the others is the latest. -/
theorem latestEdit_append
    {edits : List (String × Int)} {e : String × Int}
    (hlatest : ∀ x ∈ edits, x.2 ≤ e.2) :
    latestEdit (edits ++ [e]) = some e := by
  induction edits with
  | nil =>
      rfl
  | cons x edits ih =>
      rw [List.cons_append, latestEdit,
        ih (fun y hy => hlatest y (List.mem_cons_of_mem _ hy))]
      simp [hlatest x List.mem_cons_self]

/-- An edit that is not older than the others becomes the current text. -/
theorem currentText_append
    {edits : List (String × Int)} {content : String} {editedAt : Int}
    (hlatest : ∀ e ∈ edits, e.2 ≤ editedAt) :
    currentText codec original (edits ++ [(content, editedAt)]) =
      codec.text content := by
  have hlast : latestEdit (edits ++ [(content, editedAt)]) =
      some (content, editedAt) := latestEdit_append hlatest
  simp [currentText, hlast]

end Edits

section Steps

variable {codec : Codec} {S : Nat} {original : String} {w : Reading}

/-- A replay leaves each row as it is or writes content and extra of its input. -/
theorem RowSays.upserted
    {P : Int → String → String → Prop} {s : Store} (h : RowSays S P s)
    (currentUid : Option Nat) (env : Env) (input : UpsertRemoteMessageInput)
    (hinput : P input.messageType input.content input.extra) :
    RowSays S P (s.afterUpsert currentUid env input) := by
  intro r hr hrS
  have hmessages := upsertedMessages_afterUpsert currentUid input env s
  have hfound : (s.afterUpsert currentUid env input).message.byRowid r.id =
      some r := (Table.byRowid_eq_some_iff _ _ _).mpr ⟨hr, rfl⟩
  rcases hmessages.row_cases hfound with
    hold | ⟨base, row, -, -, -, -, heq⟩ | ⟨-, heq⟩
  · exact h r ((s.message.byRowid_eq_some_iff _ _).mp hold).1 hrS
  · rw [heq]
    exact hinput
  · rw [heq]
    exact hinput

/-- What every row of the message holds along a run that keeps the text. -/
def Reading.Inv (codec : Codec) (S : Nat) (original : String) (w : Reading) :
    Prop :=
  RowSays S (w.RowOk codec original) w.store

theorem Reading.Inv.edit
    (hpos : 0 < S) (h : w.Inv codec S original) {now : Int} {content : String}
    {editedAt : Int}
    (hok : @Reading.KeepsText codec S original w
      (now, .edit content editedAt)) :
    (w.step (now, @ContentEvent.edit codec S original content editedAt)).Inv
      codec S original := by
  obtain ⟨hrevoked, hlatest, hsaying⟩ := hok
  cases hrow : w.store.byServerId S with
  | none =>
      simpa only [Reading.step, hrow] using h
  | some row =>
      obtain ⟨hrowid, hunique⟩ := row_of_byServerId hpos hrow
      have hrows : RowSays S (fun t _ e => t = 0 ∧ e = row.extra) w.store :=
        fun r hr hrS =>
          ⟨(h r hr hrS).1, by rw [eq_of_byServerId hpos hrow hr hrS]⟩
      simp only [Reading.step, hrow]
      refine rowSays_modify hrows (editMessage_calm hrowid content editedAt)
        (fun _ => rfl) hunique ?_
      rintro r ⟨htype, hre⟩
      refine ⟨htype, ?_⟩
      simp only [hrevoked, Bool.false_eq_true, if_false, hre]
      exact ⟨hsaying row hrow, (currentText_append hlatest).symm⟩

theorem Reading.Inv.replay
    (h : w.Inv codec S original) {now : Int} {currentUid : Option Nat}
    {copy : Replay codec S original}
    (hok : Reading.KeepsText w (now, .replay currentUid copy)) :
    (w.step (now, .replay currentUid copy)).Inv codec S original := by
  obtain ⟨hrevoked, hcurrent, hsaying⟩ := hok
  refine RowSays.upserted h currentUid _ _ ⟨copy.messageType, ?_⟩
  simp only [hrevoked, Bool.false_eq_true, if_false]
  exact ⟨hsaying, copy.text.trans hcurrent.symm⟩

/-- The placeholder was written over a row whose extra is silent. -/
theorem Reading.Inv.revoke
    {row : MessageRow} (hpos : 0 < S) (hrow : w.store.byServerId S = some row)
    (hsilent : codec.SilentExtra row.extra)
    {now : Int} {p : MessageRow → Bool} {s' : Store}
    (hmsg : s'.message = w.store.message.modify p (MessageRow.tombstone now)
      (fun _ => rfl) (fun _ => rfl))
    (hhit : ∀ r ∈ w.store.message.rows, r.serverMessageId = some S →
      p r = true) :
    Reading.Inv codec S original
      { store := s', edits := w.edits, revoked := true } := by
  have hrows : RowSays S (fun _ _ e => e = row.extra) w.store := by
    intro r hr hrS
    rw [eq_of_byServerId hpos hrow hr hrS]
  refine rowSays_modify hrows hmsg (fun _ => rfl) hhit ?_
  intro r hre
  refine ⟨rfl, ?_⟩
  simp only [if_true]
  exact ⟨rfl, by simpa [MessageRow.tombstone, hre] using hsilent⟩

/-- One step that meets the condition keeps what the row has to hold. -/
theorem Reading.Inv.step
    (hpos : 0 < S) (h : w.Inv codec S original)
    (e : Int × ContentEvent codec S original) (hok : w.KeepsText e) :
    (w.step e).Inv codec S original := by
  obtain ⟨now, e⟩ := e
  cases e with
  | edit content editedAt =>
      exact h.edit hpos hok
  | replay currentUid copy =>
      exact h.replay hok
  | revokeItem revoker =>
      cases hrow : w.store.byServerId S with
      | none =>
          simpa only [Reading.step, hrow] using h
      | some row =>
          obtain ⟨hrowid, hunique⟩ := row_of_byServerId hpos hrow
          simp only [Reading.step, hrow]
          exact Reading.Inv.revoke hpos hrow (hok row hrow)
            (setMessageRevoke_calm hrowid revoker) hunique
  | revokePush revoker =>
      have hmsg := setMessageRevokeByServerMessageId_calm S w.store now revoker
      cases hrow : w.store.byServerId S with
      | none =>
          -- no row of the message: nothing is written, and nothing is claimed
          have hnone := (w.store.byServerId_eq_none_iff S).mp hrow
          intro r hr hrS
          exfalso
          simp only [Reading.step] at hr
          rw [hmsg] at hr
          obtain ⟨r₀, hr₀, rfl⟩ := (Table.mem_updatedRows _ _ _ _).mp hr
          split at hrS
          · exact hnone r₀ hr₀ hrS
          · exact hnone r₀ hr₀ hrS
      | some row =>
          simp only [Reading.step, hrow, Option.isSome_some, Bool.or_true]
          refine Reading.Inv.revoke hpos hrow (hok row hrow) hmsg ?_
          intro r _ hrS
          simp [hrS]

end Steps

section Projection

variable {codec : Codec} {S : Nat}

/--
From any row that its source created with a text, a run that keeps the text ends
with a row whose projection shows the latest edit, or nothing but the placeholder
once the message was revoked.
-/
theorem projection_follows_edits
    (hpos : 0 < S) {s : Store} {row₀ : MessageRow}
    (hrow₀ : s.byServerId S = some row₀) (htype : row₀.messageType = 0)
    (hsaying : codec.SaysText row₀.content row₀.extra)
    {events : List (Int × ContentEvent codec S (codec.text row₀.content))}
    (hok : EventRun.Guarded Reading.step Reading.KeepsText
      { store := s, edits := [], revoked := false } events) :
    let w := EventRun.run Reading.step
      { store := s, edits := [], revoked := false } events
    ∀ row m, w.store.byServerId S = some row →
      w.store.storedMessage row.id = some m →
      if w.revoked then
        codec.projectStoredMessage m = codec.placeholder
      else
        (codec.projectStoredMessage m).text =
          currentText codec (codec.text row₀.content) w.edits := by
  intro w row m hrow hm
  have hstart : Reading.Inv codec S (codec.text row₀.content)
      { store := s, edits := [], revoked := false } := by
    intro r hr hrS
    rw [eq_of_byServerId hpos hrow₀ hr hrS]
    exact ⟨htype, hsaying, rfl⟩
  have hinv : w.Inv codec S (codec.text row₀.content) :=
    hok.invariant (fun w => w.Inv codec S (codec.text row₀.content))
      (fun w e h he => Reading.Inv.step hpos h e he) hstart
  obtain ⟨hrowid, -⟩ := row_of_byServerId hpos hrow
  obtain ⟨hmem, hsid⟩ := (w.store.byServerId_eq_some_iff hpos row).mp hrow
  obtain ⟨hrowtype, hrowsays⟩ := hinv row hmem hsid
  rw [Store.storedMessage, hrowid, Option.map_some] at hm
  cases hm
  cases hrevoked : w.revoked with
  | true =>
      rw [hrevoked] at hrowsays
      obtain ⟨hcontent, hsilent⟩ := hrowsays
      exact (projectStoredMessage_placeholder_iff hrowtype hcontent).mpr hsilent
  | false =>
      rw [hrevoked] at hrowsays
      obtain ⟨hshown, htext⟩ := hrowsays
      exact ((projectStoredMessage_text_iff hrowtype).mpr hshown).trans htext

/-- A received text "old" of the server message 900 with some extra. -/
def receivedOld (extra : String) : Store :=
  Store.empty.afterUpsert (some 2) (.calm 1000)
    { UpsertRemoteMessageInput.text 900 0 10 1 5 "old" with extra := extra }

/-- What happens to that message afterwards. -/
def receivedOldThen
    (extra : String) (events : List (Int × ContentEvent sampleCodec 900 "old")) :
    Reading :=
  EventRun.run Reading.step
    { store := receivedOld extra, edits := [], revoked := false } events

theorem projection_follows_edits_then_revoke :
    ∃ row m,
      (receivedOldThen "" [(1001, .edit "new" 5), (1002, .edit "newer" 7),
        (1003, .revokePush none)]).store.byServerId 900 = some row ∧
      (receivedOldThen "" [(1001, .edit "new" 5), (1002, .edit "newer" 7),
        (1003, .revokePush none)]).store.storedMessage row.id = some m ∧
      sampleCodec.projectStoredMessage m = sampleCodec.placeholder := by
  have hold : sampleCodec.SaysText "old" "" := by
    intro v hv
    cases hv
  have hnew : sampleCodec.SaysText "new" "" := by
    intro v hv
    cases hv
  have hnewer : sampleCodec.SaysText "newer" "" := by
    intro v hv
    cases hv
  have hsilent : sampleCodec.SilentExtra "" :=
    ⟨(fun v hv => by cases hv), rfl, by decide, by decide, rfl, by decide⟩
  refine ⟨_, _, rfl, rfl, ?_⟩
  exact @projection_follows_edits sampleCodec 900 (by decide) (receivedOld "")
    ((UpsertRemoteMessageInput.text 900 0 10 1 5 "old").toRow 1000 1)
    rfl rfl hold
    [(1001, .edit "new" 5), (1002, .edit "newer" 7), (1003, .revokePush none)]
    ⟨⟨rfl, by decide, fun r hr => by cases hr; exact hnew⟩,
      ⟨rfl, by decide, fun r hr => by cases hr; exact hnewer⟩,
      (fun r hr => by cases hr; exact hsilent), trivial⟩ _ _ rfl rfl

/--
An edit writes the content column; the copy of the text in the extra comes first
and keeps showing the text before the edit.
-/
theorem edit_hidden_by_extra :
    ((receivedOldThen "\x7b\"content\":\"old\"\x7d"
      [(1001, .edit "new" 5)]).store.storedMessage 1).map
        (fun m => (sampleCodec.projectStoredMessage m).text) = some "old" ∧
    currentText sampleCodec "old" [("new", 5)] = "new" := by
  decide +kernel

end Projection

end PrivchatSdk
