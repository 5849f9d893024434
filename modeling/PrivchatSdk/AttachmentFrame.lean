import PrivchatSdk.OutboundFile

/-!
# The frame of the preparation

Whatever the preparation of an attachment meets, it writes files of the
message's directory only, keeps the columns that decide about the send, and
leaves the record of the attempts alone (`prepares_prepare`).  The rules for the
single steps, which the postconditions of the phases are made with, come last.
-/

namespace PrivchatSdk

open StatementExec RelTable

section Frames

/-- The columns of a row that an attempt leaves alone before it is settled. -/
def MessageRow.heldColumns (r : MessageRow) :
    Int × Option Nat × Nat × Nat × Int × Int × String :=
  (r.status, r.serverMessageId, r.id, r.fromUid, r.messageType, r.createdAt,
    r.extra)

/-- The commands are left alone, and the held columns of the message. -/
structure StoreHeld (m : Nat) (s s' : Store) : Prop where
  outbox : s'.outbox = s.outbox
  row : (s'.message.byRowid m).map MessageRow.heldColumns =
    (s.message.byRowid m).map MessageRow.heldColumns

theorem StoreHeld.refl (m : Nat) (s : Store) : StoreHeld m s s where
  outbox := rfl
  row := rfl

theorem StoreHeld.trans
    {m : Nat} {s t u : Store} (h : StoreHeld m s t) (h' : StoreHeld m t u) :
    StoreHeld m s u where
  outbox := h'.outbox.trans h.outbox
  row := h'.row.trans h.row

theorem storeHeld_modify
    (m : Nat) (s : Store) (p : MessageRow → Bool) (f : MessageRow → MessageRow)
    (hid hkeys) (hcol : ∀ r, (f r).heldColumns = r.heldColumns) :
    StoreHeld m s { s with message := s.message.modify p f hid hkeys } where
  outbox := rfl
  row := by
    rw [Table.byRowid_modify, Option.map_map]
    congr 1
    funext r
    by_cases hp : p r = true
    · simp [hp, hcol]
    · simp [hp]

theorem storeHeld_updateThumbStatus (m thumbStatus) :
    (updateThumbStatus m thumbStatus).Relates (StoreHeld m) := by
  intro env s
  unfold updateThumbStatus Exec.after
  rw [nowMs_bind]
  cases hrun : modifyMessage "update thumb_status" (fun r => r.id == m)
      (fun r => { r with thumbStatus := thumbStatus, updatedAt := env.now })
      (fun _ => rfl) (fun _ => rfl) env s with
  | mk res s' =>
  cases res with
  | ok n =>
      obtain ⟨-, -, rfl⟩ := modifyMessage_ok.mp hrun
      exact storeHeld_modify m s _ _ _ _ (fun _ => rfl)
  | error e =>
      obtain ⟨rfl, -⟩ := modifyMessage_error hrun
      exact .refl m _

theorem storeHeld_updateMessageContentLocal (m : Nat) (content : String) :
    (updateMessageContentLocal m content).Relates (StoreHeld m) := by
  intro env s
  unfold updateMessageContentLocal Exec.after
  rw [nowMs_bind]
  cases hrun : modifyExisting "update message content local"
      s!"update message content failed: message.id={m} not found" m
      (fun r => { r with content := content, updatedAt := env.now })
      (fun _ => rfl) (fun _ => rfl) env s with
  | mk res s' =>
  rcases modifyExisting_cases hrun with ⟨e, -, rfl⟩ | ⟨-, -, rfl⟩
  · exact .refl m _
  · exact storeHeld_modify m s _ _ _ _ (fun _ => rfl)

/-- The record of the attempts is left alone. -/
def SameRecord (d d' : Device) : Prop :=
  d'.reads = d.reads ∧ d'.thumbs = d.thumbs ∧ d'.bodies = d.bodies ∧
    d'.accepted = d.accepted

variable (h : MediaHost) (a : Attachment)

/-- The preparation writes files of the message's directory, and no record. -/
structure Prepares (d d' : Device) : Prop where
  files : ∀ q, q ≠ a.bodyPath h → q ≠ a.metaPath h → q ≠ a.canonicalThumb h →
    d'.files q = d.files q
  store : StoreHeld a.messageId d.store d'.store
  record : SameRecord d d'

theorem Prepares.refl (d : Device) : Prepares h a d d where
  files _ _ _ _ := rfl
  store := .refl _ _
  record := ⟨rfl, rfl, rfl, rfl⟩

theorem Prepares.trans (d₁ d₂ d₃ : Device)
    (h₁ : Prepares h a d₁ d₂) (h₂ : Prepares h a d₂ d₃) : Prepares h a d₁ d₃ where
  files q hb hm hc := (h₂.files q hb hm hc).trans (h₁.files q hb hm hc)
  store := h₁.store.trans h₂.store
  record :=
    ⟨h₂.record.1.trans h₁.record.1, h₂.record.2.1.trans h₁.record.2.1,
      h₂.record.2.2.1.trans h₁.record.2.2.1,
      h₂.record.2.2.2.trans h₁.record.2.2.2⟩

theorem prepares_crashPoint (step : Step) :
    (crashPoint step).Relates (Prepares h a) := by
  intro env d
  unfold Exec.after crashPoint
  split <;> exact .refl h a d

theorem prepares_ioStep (step : Step) (e : SendError) :
    (ioStep step e).Relates (Prepares h a) := by
  intro env d
  unfold Exec.after ioStep
  split <;> exact .refl h a d

theorem prepares_peekFiles : peekFiles.Relates (Prepares h a) := by
  intro env d
  exact .refl h a d

/-- A write into the directory of the message. -/
theorem prepares_update
    {d : Device} {path : Path} (bytes : Bytes)
    (hpath : path = a.bodyPath h ∨ path = a.metaPath h ∨
      path = a.canonicalThumb h) :
    Prepares h a d
      { d with files := Function.update d.files path (some bytes) } where
  files q hb hm hc := by
    have hq : q ≠ path := by
      rintro rfl
      rcases hpath with rfl | rfl | rfl
      · exact hb rfl
      · exact hm rfl
      · exact hc rfl
    exact Function.update_of_ne hq _ _
  store := .refl _ _
  record := ⟨rfl, rfl, rfl, rfl⟩

theorem prepares_writeFile
    (step : Step) (text : String) {path : Path} (bytes : Bytes)
    (hpath : path = a.bodyPath h ∨ path = a.metaPath h ∨
      path = a.canonicalThumb h) :
    (writeFile step text path bytes).Relates (Prepares h a) := by
  intro env d
  unfold Exec.after writeFile
  split
  · exact prepares_update h a _ hpath
  · exact .refl h a d
  · exact prepares_update h a _ hpath

theorem prepares_replaceFile (bytes : Bytes) :
    (replaceFile (a.bodyPath h) bytes).Relates (Prepares h a) := by
  intro env d
  exact prepares_update h a bytes (.inl rfl)

theorem prepares_copyFile
    (step : Step) (text : String) (source : Path) :
    (copyFile step text source (a.canonicalThumb h)).Relates (Prepares h a) := by
  refine (prepares_peekFiles h a).bind (Prepares.trans h a) (fun files => ?_)
  split
  · exact Exec.relates_fail (Prepares.refl h a) _
  · exact prepares_writeFile h a _ _ _ (.inr (.inr rfl))

theorem prepares_onStore
    {α : Type} {x : StoreM α} (hx : x.Relates (StoreHeld a.messageId)) :
    (onStore a.messageId x).Relates (Prepares h a) := by
  intro env d
  have hheld := hx (env.pass.commandEnv a.messageId) d.store
  unfold Exec.after at hheld
  unfold Exec.after onStore
  cases hrun : x (env.pass.commandEnv a.messageId) d.store with
  | mk res s' =>
  rw [hrun] at hheld
  cases res with
  | ok v =>
      exact ⟨fun _ _ _ _ => rfl, hheld, rfl, rfl, rfl, rfl⟩
  | error e =>
      exact ⟨fun _ _ _ _ => rfl, hheld, rfl, rfl, rfl, rfl⟩

theorem prepares_noteThumbStatus (thumbStatus : Int) :
    (noteThumbStatus a.messageId thumbStatus).Relates (Prepares h a) :=
  ((prepares_onStore h a (storeHeld_updateThumbStatus _ _)).attempt).bind
    (Prepares.trans h a) (fun _ => prepares_crashPoint h a _)

theorem prepares_ofEnv
    {α : Type} (f : SendEnv → α) :
    (ofEnv f).Relates (Prepares h a) := by
  intro env d
  exact .refl h a d

theorem prepares_pure {α : Type} (v : α) :
    (pure v : SendM α).Relates (Prepares h a) :=
  Exec.relates_pure (Prepares.refl h a) v

theorem prepares_fail {α : Type} (e : Halt) :
    (Exec.fail e : SendM α).Relates (Prepares h a) :=
  Exec.relates_fail (Prepares.refl h a) e

theorem prepares_generateImageThumbnail (name : String) (source : Option Bytes) :
    (generateImageThumbnail h name source (a.canonicalThumb h)).Relates
      (Prepares h a) := by
  unfold generateImageThumbnail
  split
  · exact prepares_fail h a _
  · refine (prepares_writeFile h a _ _ _ (.inr (.inr rfl))).bind
      (Prepares.trans h a) (fun _ => ?_)
    exact (prepares_crashPoint h a _).bind (Prepares.trans h a)
      (fun _ => prepares_pure h a _)

theorem prepares_reuseThumb : (reuseThumb h a).Relates (Prepares h a) := by
  refine (prepares_peekFiles h a).bind (Prepares.trans h a) (fun files => ?_)
  split
  · exact prepares_pure h a _
  · refine Exec.Relates.ite (prepares_pure h a _) ?_
    refine (prepares_copyFile h a _ _ _).attempt.bind (Prepares.trans h a)
      (fun copied => ?_)
    refine (prepares_crashPoint h a _).bind (Prepares.trans h a) (fun _ => ?_)
    split
    · exact prepares_pure h a _
    · exact (prepares_peekFiles h a).bind (Prepares.trans h a)
        (fun _ => prepares_pure h a _)

theorem prepares_writeMeta
    (prepared : Prepared) (thumbnail : Option MediaThumbnailMeta) :
    (writeMeta h a prepared thumbnail).Relates (Prepares h a) := by
  refine (prepares_ofEnv h a SendEnv.nowSecs).bind (Prepares.trans h a)
    (fun now => ?_)
  exact (prepares_writeFile h a _ _ _ (.inr (.inl rfl))).bind
    (Prepares.trans h a) (fun _ => prepares_crashPoint h a _)

theorem prepares_imageThumb : (imageThumb h a).Relates (Prepares h a) := by
  refine (prepares_reuseThumb h a).bind (Prepares.trans h a) (fun reused => ?_)
  split
  · exact prepares_pure h a _
  · exact (prepares_peekFiles h a).bind (Prepares.trans h a)
      (fun _ => prepares_generateImageThumbnail h a _ _)

theorem prepares_compressVideo (body : Bytes) :
    (compressVideo h a body).Relates (Prepares h a) := by
  unfold compressVideo
  split
  · split
    · exact prepares_fail h a _
    · exact (prepares_crashPoint h a _).bind (Prepares.trans h a)
        (fun _ => prepares_pure h a _)
    · refine (prepares_replaceFile h a _).bind (Prepares.trans h a) (fun _ => ?_)
      refine (prepares_crashPoint h a _).bind (Prepares.trans h a) (fun _ => ?_)
      exact (prepares_ioStep h a _ _).bind (Prepares.trans h a)
        (fun _ => prepares_pure h a _)
  · exact prepares_pure h a _

theorem prepares_copyVideoThumb : (copyVideoThumb h a).Relates (Prepares h a) := by
  refine (prepares_peekFiles h a).bind (Prepares.trans h a) (fun files => ?_)
  split
  · exact prepares_pure h a _
  · refine (prepares_copyFile h a _ _ _).bind (Prepares.trans h a) (fun _ => ?_)
    refine (prepares_crashPoint h a _).bind (Prepares.trans h a) (fun _ => ?_)
    exact (prepares_noteThumbStatus h a _).bind (Prepares.trans h a)
      (fun _ => prepares_pure h a _)

theorem prepares_presentThumb (found : Option Path) :
    (presentThumb h a found).Relates (Prepares h a) := by
  refine (prepares_peekFiles h a).bind (Prepares.trans h a) (fun files => ?_)
  refine Exec.Relates.ite ?_ (prepares_pure h a _)
  exact (prepares_noteThumbStatus h a _).bind (Prepares.trans h a)
    (fun _ => prepares_pure h a _)

theorem prepares_frameThumb (frame : Bytes) :
    (frameThumb h a frame).Relates (Prepares h a) := by
  have hencode : (do
      let _ ← generateImageThumbnail h "thumb.src.jpg" (some frame)
        (a.canonicalThumb h)
      noteThumbStatus a.messageId 1 : SendM PUnit).Relates (Prepares h a) :=
    (prepares_generateImageThumbnail h a _ _).bind (Prepares.trans h a)
      (fun _ => prepares_noteThumbStatus h a _)
  refine hencode.attempt.bind (Prepares.trans h a) (fun encoded => ?_)
  split
  · exact prepares_pure h a _
  · exact prepares_fail h a _
  · exact prepares_pure h a _

theorem prepares_hookThumb (video : Bytes) :
    (hookThumb h a video).Relates (Prepares h a) := by
  unfold hookThumb
  split
  · exact prepares_pure h a _
  · split
    · exact prepares_fail h a _
    · exact (prepares_crashPoint h a _).bind (Prepares.trans h a)
        (fun _ => prepares_pure h a _)
    · exact (prepares_crashPoint h a _).bind (Prepares.trans h a)
        (fun _ => prepares_frameThumb h a _)

theorem prepares_jobThumb : (jobThumb h a).Relates (Prepares h a) := by
  refine (prepares_ofEnv h a SendEnv.mediaJob).bind (Prepares.trans h a)
    (fun made => ?_)
  refine (prepares_crashPoint h a _).bind (Prepares.trans h a) (fun _ => ?_)
  split
  · exact prepares_frameThumb h a _
  · exact prepares_pure h a _

theorem prepares_makeVideoThumb (video : Bytes) :
    (makeVideoThumb h a video).Relates (Prepares h a) := by
  refine (prepares_hookThumb h a _).bind (Prepares.trans h a) (fun hooked => ?_)
  split
  · exact prepares_pure h a _
  · refine (prepares_jobThumb h a).bind (Prepares.trans h a) (fun made => ?_)
    split
    · exact prepares_pure h a _
    · exact (prepares_noteThumbStatus h a _).bind (Prepares.trans h a)
        (fun _ => prepares_pure h a _)

theorem prepares_videoThumb (video : Bytes) :
    (videoThumb h a video).Relates (Prepares h a) := by
  refine (prepares_copyVideoThumb h a).bind (Prepares.trans h a) (fun copied => ?_)
  refine (prepares_presentThumb h a _).bind (Prepares.trans h a) (fun found => ?_)
  exact Exec.Relates.ite (prepares_pure h a _) (prepares_makeVideoThumb h a _)

/-- The preparation of any file type. -/
theorem prepares_prepare (body : Bytes) :
    (prepare h a body).Relates (Prepares h a) := by
  unfold prepare
  split
  · refine (prepares_imageThumb h a).bind (Prepares.trans h a) (fun size => ?_)
    refine (prepares_noteThumbStatus h a _).bind (Prepares.trans h a) (fun _ => ?_)
    exact (prepares_writeMeta h a _ _).bind (Prepares.trans h a)
      (fun _ => prepares_pure h a _)
  · refine (prepares_compressVideo h a _).bind (Prepares.trans h a)
      (fun upload => ?_)
    refine (prepares_videoThumb h a _).bind (Prepares.trans h a) (fun thumb => ?_)
    refine (prepares_peekFiles h a).bind (Prepares.trans h a) (fun files => ?_)
    exact (prepares_writeMeta h a _ _).bind (Prepares.trans h a)
      (fun _ => prepares_pure h a _)
  · exact (prepares_writeMeta h a _ _).bind (Prepares.trans h a)
      (fun _ => prepares_pure h a _)

end Frames

section Rules

variable {env : SendEnv} {d : Device} {E : Halt → Device → Prop}

@[simp] theorem ensures_peekFiles {Q : Files → Device → Prop} :
    peekFiles.Ensures env d Q E ↔ Q d.files d := by
  rfl

@[simp] theorem ensures_ofEnv
    {α : Type} {f : SendEnv → α} {Q : α → Device → Prop} :
    (ofEnv f).Ensures env d Q E ↔ Q (f env) d := by
  rfl

@[simp] theorem ensures_replaceFile
    {path : Path} {bytes : Bytes} {Q : PUnit → Device → Prop} :
    (replaceFile path bytes).Ensures env d Q E ↔
      Q .unit { d with files := Function.update d.files path (some bytes) } := by
  rfl

@[simp] theorem ensures_crashPoint
    {step : Step} {Q : PUnit → Device → Prop} :
    (crashPoint step).Ensures env d Q E ↔
      if env.crash = some step then E .crash d else Q .unit d := by
  unfold Exec.Ensures crashPoint
  by_cases hcrash : env.crash = some step
  · simp [hcrash]
  · simp [hcrash]

@[simp] theorem ensures_ioStep
    {step : Step} {e : SendError} {Q : PUnit → Device → Prop} :
    (ioStep step e).Ensures env d Q E ↔
      if env.ioFault step = none then Q .unit d else E (.stop e) d := by
  unfold Exec.Ensures ioStep
  cases env.ioFault step <;> simp

/-- A write: done, refused, or torn. -/
theorem ensures_writeFile
    {step : Step} {text : String} {path : Path} {bytes : Bytes}
    {Q : PUnit → Device → Prop}
    (hdone : env.ioFault step = none →
      Q .unit { d with files := Function.update d.files path (some bytes) })
    (hrefused : env.ioFault step ≠ none → E (.stop (.storage text)) d)
    (htorn : ∀ written, env.ioFault step = some (.torn written) →
      E (.stop (.storage text))
        { d with
          files := Function.update d.files path (some (bytes.take written)) }) :
    (writeFile step text path bytes).Ensures env d Q E := by
  unfold Exec.Ensures writeFile
  cases hfault : env.ioFault step with
  | none =>
      exact hdone hfault
  | some fault =>
      cases fault with
      | untouched =>
          exact hrefused (by simp [hfault])
      | torn written =>
          exact htorn written hfault

@[simp] theorem ensures_answer
    {α : Type} {f : SendEnv → Except SendError α} {Q : α → Device → Prop} :
    (answer f).Ensures env d Q E ↔
      match f env with
      | .ok v => Q v d
      | .error e => E (.stop e) d := by
  unfold Exec.Ensures answer
  cases f env <;> rfl

/-- The thumbnail state touches the database only. -/
theorem ensures_noteThumbStatus
    {messageId : Nat} {thumbStatus : Int} {Q : PUnit → Device → Prop}
    (hok : ∀ s, Q .unit { d with store := s })
    (hcrash : env.crash ≠ none → ∀ s, E .crash { d with store := s }) :
    (noteThumbStatus messageId thumbStatus).Ensures env d Q E := by
  unfold noteThumbStatus
  rw [Exec.ensures_bind, Exec.ensures_attempt]
  have hstore : ∀ s, (crashPoint .thumbStatus).Ensures env
      { d with store := s } Q E := by
    intro s
    rw [ensures_crashPoint]
    split
    · rename_i hc
      exact hcrash (by simp [hc]) s
    · exact hok s
  unfold Exec.Ensures onStore
  cases hrun : updateThumbStatus messageId thumbStatus
      (env.pass.commandEnv messageId) d.store with
  | mk res s' =>
  cases res with
  | ok n =>
      exact hstore s'
  | error e =>
      exact hstore s'

end Rules

end PrivchatSdk
